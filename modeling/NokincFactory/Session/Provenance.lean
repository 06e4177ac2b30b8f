/-
  File:      NokincFactory/Session/Provenance.lean
  Subject:   Where in the ledger the facts of a session's state come from.

  What a report says is taken as it is: a reviewer may be wrong.

  * `ReviewPass`: a completed attempt that earned a credited report, with everything that
    was checked on the way;
  * `RepairPass`: a completed attempt that recorded a resolution and installed an artifact;
  * `Passes`, `Resolutions`, `Closures`: the invariants that tie the credited reports, the
    resolutions and the closed findings of a state to such attempts;
  * `eligible_sound`: what an ELIGIBLE decision rests on;
  * `closed_by_recheck`: who closed a finding, and that nothing else does.
-/
import NokincFactory.Session.Findings

namespace NokincFactory

section Provenance

variable [Sha256] [Pydantic] {seed : ReviewSeed}

/-! ## 1. Attempts that changed the state -/

/-- The attempt `⟨invocation, completion⟩` of the ledger, after `earlier` and in the state
    `before`, earned credit for `report`. -/
structure ReviewPass (seed : ReviewSeed) (attempts earlier : List ReviewAttempt)
    (invocation : Invocation) (completion : Completion) (before : ReviewState)
    (report : ReviewReport) : Prop where
  place : CompletedIn seed attempts earlier ⟨invocation, some completion⟩ before
  kind : invocation.kind = .review
  reviewer : invocation.actor ∈ seed.reviewers
  independent : independent seed before.artifact invocation.actor = .ok ()
  running : completion.failureReason = none
  delivered : ∃ text, completion.outputJson = some text ∧
    ReviewReport.modelValidateJson text = .ok report
  bound : BoundReport seed before invocation report
  covering : CompleteReport seed before report
  receipt : ∃ proof, completion.receipt = some proof ∧ validReceipt earlier invocation proof ∧
    proof.usage.tokens ≤ invocation.reservation.tokens ∧
    proof.usage.costMicrousd ≤ invocation.reservation.costMicrousd
  window : seed.startedAt ≤ completion.finishedAt ∧
    completion.finishedAt.micros - seed.startedAt.micros < seed.policy.maxElapsedSeconds * micro
  seconds : invocation.startedAt ≤ completion.finishedAt ∧
    completion.finishedAt.micros - invocation.startedAt.micros <
      invocation.reservation.seconds * micro
  credited : ∃ after, Ledger seed (earlier ++ [⟨invocation, some completion⟩]) after ∧
    after.validCompletedReports = before.validCompletedReports ++ [report]

/-- The attempt `⟨invocation, completion⟩` of the ledger, after `earlier` and in the state
    `before`, installed the artifact of `repair` and recorded `record`. -/
structure RepairPass (seed : ReviewSeed) (attempts earlier : List ReviewAttempt)
    (invocation : Invocation) (completion : Completion) (before : ReviewState)
    (repair : RepairReport) (record : ResolutionRecord) : Prop where
  place : CompletedIn seed attempts earlier ⟨invocation, some completion⟩ before
  kind : invocation.kind = .repair
  doer : invocation.actor = seed.originalDoer
  delivered : ∃ text, completion.outputJson = some text ∧
    RepairReport.modelValidateJson text = .ok repair
  resolution : record.resolution ∈ repair.resolutions
  /-- the resolution answers an open finding under its report digest of that time -/
  current : ∃ item ∈ before.openFindings, item.fingerprint = record.resolution.fingerprint ∧
    item.reportDigest = record.resolution.reportDigest
  artifact : record.artifactDigest = contentDigest repair.artifact
  installed : ∃ after, Ledger seed (earlier ++ [⟨invocation, some completion⟩]) after ∧
    after.artifact = repair.artifact

theorem ReviewPass.advance {attempts earlier : List ReviewAttempt} {pending invocation : Invocation}
    {completion : Completion} {before : ReviewState} {report : ReviewReport}
    (h : ReviewPass seed (attempts ++ [⟨pending, none⟩]) earlier invocation completion before
      report) : ReviewPass seed attempts earlier invocation completion before report :=
  { h with place := h.place.before }

theorem ReviewPass.append {attempts earlier : List ReviewAttempt} {invocation : Invocation}
    {completion : Completion} {before : ReviewState} {report : ReviewReport}
    (h : ReviewPass seed attempts earlier invocation completion before report)
    (rest : List ReviewAttempt) :
    ReviewPass seed (attempts ++ rest) earlier invocation completion before report :=
  { h with place := h.place.append rest }

theorem RepairPass.advance {attempts earlier : List ReviewAttempt} {pending invocation : Invocation}
    {completion : Completion} {before : ReviewState} {repair : RepairReport}
    {record : ResolutionRecord}
    (h : RepairPass seed (attempts ++ [⟨pending, none⟩]) earlier invocation completion before
      repair record) :
    RepairPass seed attempts earlier invocation completion before repair record :=
  { h with place := h.place.before }

theorem RepairPass.append {attempts earlier : List ReviewAttempt} {invocation : Invocation}
    {completion : Completion} {before : ReviewState} {repair : RepairReport}
    {record : ResolutionRecord}
    (h : RepairPass seed attempts earlier invocation completion before repair record)
    (rest : List ReviewAttempt) :
    RepairPass seed (attempts ++ rest) earlier invocation completion before repair record :=
  { h with place := h.place.append rest }

/-- A credited completion earned its report. -/
theorem reviewPass_of_credited {attempts : List ReviewAttempt} {invocation : Invocation}
    {completion : Completion} {state settled : ReviewState} {text : String} {report : ReviewReport}
    (hl : Ledger seed (attempts ++ [⟨invocation, none⟩]) state)
    (hnext : Ledger seed (attempts ++ [⟨invocation, some completion⟩]) (capacity seed settled))
    (hclean : Clean seed state invocation completion) (hk : invocation.kind = .review)
    (ho : completion.outputJson = some text)
    (hp : ReviewReport.modelValidateJson text = .ok report)
    (hb : BoundReport seed (account state invocation completion).1 invocation report)
    (hc : Credited seed (account state invocation completion).1 report settled)
    (hr : settled.validCompletedReports = state.validCompletedReports ++ [report]) :
    ReviewPass seed (attempts ++ [⟨invocation, some completion⟩]) attempts invocation completion
      state report := by
  obtain ⟨before, hbefore, hres, rfl⟩ := hl.unreserve
  obtain ⟨-, hactor, hind⟩ := (reserveKind_review hk).mp hres.kind
  obtain ⟨⟨-, hstart, hwithin⟩, hnonneg, hheld⟩ := hclean.time
  exact
    { place := completedIn_last hl
      kind := hk
      reviewer := hactor
      independent := hind
      running := hclean.running
      delivered := ⟨text, ho, hp⟩
      bound := hb.congr rfl
      covering := hc.complete.congr rfl
      receipt := hclean.receipt hl.executionsSeen.settle
      window := ⟨hstart, lt_of_totalSeconds_lt hwithin⟩
      seconds := ⟨nonneg_of_totalSeconds hnonneg, lt_of_totalSeconds_lt hheld⟩
      credited := ⟨_, hnext, (capacity_validCompletedReports _ _).trans hr⟩ }

/-- An installed repair recorded each of its resolutions. -/
theorem repairPass_of_repaired {attempts : List ReviewAttempt} {invocation : Invocation}
    {completion : Completion} {state settled : ReviewState} {text : String} {repair : RepairReport}
    {resolutions : List ResolutionRecord}
    (hl : Ledger seed (attempts ++ [⟨invocation, none⟩]) state)
    (hnext : Ledger seed (attempts ++ [⟨invocation, some completion⟩]) (capacity seed settled))
    (hk : invocation.kind = .repair) (ho : completion.outputJson = some text)
    (hp : RepairReport.modelValidateJson text = .ok repair)
    (hr : Repaired seed (account state invocation completion).1 invocation repair resolutions
      settled) {record : ResolutionRecord} (hm : record ∈ resolutions) :
    RepairPass seed (attempts ++ [⟨invocation, some completion⟩]) attempts invocation completion
      state repair record := by
  have hkeyed : Keyed (account state invocation completion).1.findings := hl.keyed
  have hres := reconcileRepair_ok hkeyed hr.reconciled
  obtain ⟨resolution, hmem, hrec, item, hi, hfp, hdig, -⟩ := exists_of_forall₂ hres.each hm
  subst hrec
  exact
    { place := completedIn_last hl
      kind := hk
      doer := hres.actor
      delivered := ⟨text, ho, hp⟩
      resolution := hmem
      current := ⟨item, hi, hfp, hdig.symm⟩
      artifact := rfl
      installed := ⟨_, hnext, by rw [capacity_artifact, hr.state]⟩ }

/-! ## 2. Credited reports -/

/-- The provider execution a receipt reports. -/
def executionOf (a : ReviewAttempt) : Option (Identifier × Identifier) :=
  (a.completion.bind (·.receipt)).map fun proof => (proof.actualModel.provider, proof.executionId)

/-- The credited reports of a state, each with the attempt of the ledger that earned it. -/
structure Passes (seed : ReviewSeed) (attempts : List ReviewAttempt) (state : ReviewState)
    (credits : List (ReviewAttempt × ReviewReport)) : Prop where
  ordered : (credits.map Prod.fst).Sublist attempts
  reports : credits.map Prod.snd = state.validCompletedReports
  earned : ∀ credit ∈ credits, ∃ earlier invocation completion before,
    credit.1 = ⟨invocation, some completion⟩ ∧
      ReviewPass seed attempts earlier invocation completion before credit.2
  apart : credits.Pairwise fun a b => executionOf a.1 ≠ executionOf b.1

omit [Sha256] [Pydantic] in
theorem sublist_of_not_mem {α : Type} {l l' : List α} {a : α} (h : l.Sublist (l' ++ [a]))
    (ha : a ∉ l) : l.Sublist l' := by
  obtain ⟨l₁, l₂, rfl, h₁, h₂⟩ := List.sublist_append_iff.mp h
  cases l₂ with
  | nil => rwa [List.append_nil]
  | cons b bs =>
      obtain rfl := List.mem_singleton.mp (h₂.subset List.mem_cons_self)
      exact absurd (List.mem_append_right _ List.mem_cons_self) ha

/-- Completing the pending attempt keeps the passes there were. -/
theorem Passes.advance {attempts : List ReviewAttempt} {state : ReviewState}
    {pending : Invocation} {credits : List (ReviewAttempt × ReviewReport)}
    (h : Passes seed (attempts ++ [⟨pending, none⟩]) state credits) :
    Passes seed attempts state credits where
  ordered := by
    refine sublist_of_not_mem h.ordered fun hm => ?_
    obtain ⟨credit, hc, heq⟩ := List.mem_map.mp hm
    obtain ⟨_, _, _, _, hsome, -⟩ := h.earned credit hc
    rw [hsome] at heq
    cases heq
  reports := h.reports
  earned := fun credit hc => by
    obtain ⟨earlier, invocation, completion, before, hsome, hpass⟩ := h.earned credit hc
    exact ⟨earlier, invocation, completion, before, hsome, hpass.advance⟩
  apart := h.apart

theorem Passes.append {attempts : List ReviewAttempt} {state state' : ReviewState}
    {credits : List (ReviewAttempt × ReviewReport)} (h : Passes seed attempts state credits)
    (rest : List ReviewAttempt)
    (hr : state'.validCompletedReports = state.validCompletedReports) :
    Passes seed (attempts ++ rest) state' credits where
  ordered := h.ordered.trans (List.sublist_append_left _ _)
  reports := h.reports.trans hr.symm
  earned := fun credit hc => by
    obtain ⟨earlier, invocation, completion, before, hsome, hpass⟩ := h.earned credit hc
    exact ⟨earlier, invocation, completion, before, hsome, hpass.append rest⟩
  apart := h.apart

omit [Pydantic] in
/-- A valid receipt reports an execution that no earlier attempt reported. -/
theorem executionOf_ne {attempts : List ReviewAttempt} {invocation : Invocation}
    {completion : Completion} {proof : InvocationReceipt} (hr : completion.receipt = some proof)
    (hv : validReceipt attempts invocation proof) {a : ReviewAttempt} (ha : a ∈ attempts) :
    executionOf a ≠ executionOf ⟨invocation, some completion⟩ := by
  intro heq
  have hnew : executionOf ⟨invocation, some completion⟩ =
      some (proof.actualModel.provider, proof.executionId) := by
    unfold executionOf
    rw [Option.bind_some, hr]
    rfl
  rw [hnew] at heq
  obtain ⟨proof', hp', hpair⟩ := Option.map_eq_some_iff.mp heq
  obtain ⟨hprov, hexec⟩ := Prod.mk.inj hpair
  refine hv.2.2.2.2 (List.mem_filterMap.mpr ⟨a, ha, ?_⟩)
  rw [hp', Option.map_some]
  unfold executionKey
  rw [hprov, hexec]

theorem Passes.earn {attempts : List ReviewAttempt} {state state' : ReviewState}
    {credits : List (ReviewAttempt × ReviewReport)} {invocation : Invocation}
    {completion : Completion} {before : ReviewState} {report : ReviewReport}
    (h : Passes seed attempts state credits)
    (hpass : ReviewPass seed (attempts ++ [⟨invocation, some completion⟩]) attempts invocation
      completion before report)
    (hr : state'.validCompletedReports = state.validCompletedReports ++ [report]) :
    Passes seed (attempts ++ [⟨invocation, some completion⟩]) state'
      (credits ++ [(⟨invocation, some completion⟩, report)]) where
  ordered := by
    rw [List.map_append]
    exact h.ordered.append (List.Sublist.refl _)
  reports := by
    rw [List.map_append, h.reports, hr]
    rfl
  earned := fun credit hc => by
    rcases List.mem_append.mp hc with hc | hc
    · obtain ⟨earlier, invocation', completion', before', hsome, hold⟩ := h.earned credit hc
      exact ⟨earlier, invocation', completion', before', hsome, hold.append _⟩
    · obtain rfl := List.mem_singleton.mp hc
      exact ⟨attempts, invocation, completion, before, rfl, hpass⟩
  apart := by
    refine List.pairwise_append.mpr ⟨h.apart, List.pairwise_singleton _ _, ?_⟩
    intro a ha b hb
    obtain rfl := List.mem_singleton.mp hb
    obtain ⟨proof, hreceipt, hvalid, -⟩ := hpass.receipt
    exact executionOf_ne hreceipt hvalid (h.ordered.subset (List.mem_map_of_mem ha))

theorem Ledger.passes {attempts : List ReviewAttempt} {state : ReviewState}
    (h : Ledger seed attempts state) : ∃ credits, Passes seed attempts state credits := by
  refine Ledger.rule (motive := fun attempts state =>
    ∃ credits, Passes seed attempts state credits) ?_ ?_ ?_ h
  · intro _
    exact ⟨[], List.Sublist.refl _, rfl, fun _ hc => absurd hc List.not_mem_nil, List.Pairwise.nil⟩
  · intro attempts state invocation _ _ ih
    obtain ⟨credits, hp⟩ := ih
    exact ⟨credits, hp.append _ rfl⟩
  · intro attempts state invocation completion settled hl hnext _ _ ho ih
    obtain ⟨credits, hp⟩ := ih
    cases ho.inspection with
    | untouched hf hr =>
        exact ⟨credits, hp.advance.append _ ((capacity_validCompletedReports _ _).trans hr)⟩
    | retained report hb hf hr ht =>
        exact ⟨credits, hp.advance.append _ ((capacity_validCompletedReports _ _).trans hr)⟩
    | credited text report hclean hk hout hparse hb hc hrec hr =>
        have hpass := reviewPass_of_credited hl hnext hclean hk hout hparse hb hc hr
        exact ⟨_, hp.advance.earn hpass ((capacity_validCompletedReports _ _).trans hr)⟩

/-! ## 3. Resolutions and closed findings -/

/-- A completion records no resolution, or those of an installed repair. -/
theorem Outcome.resolutions {state settled : ReviewState} {invocation : Invocation}
    {completion : Completion} (h : Outcome seed state invocation completion settled) :
    settled.resolutions = state.resolutions ∨
      ∃ text repair resolutions, invocation.kind = .repair ∧ completion.outputJson = some text ∧
        RepairReport.modelValidateJson text = .ok repair ∧
        Repaired seed (account state invocation completion).1 invocation repair resolutions
          settled := by
  cases h with
  | stopped stop h => exact Or.inl rfl
  | faulted reason hn h => exact Or.inl rfl
  | refused exc h hunbound hmissing hrepair => exact Or.inl rfl
  | uncredited text report exc h hk ho hb hc =>
      rw [failure_resolutions, retainStops_frame]
      exact Or.inl rfl
  | credited text report updated h hk ho hb hc =>
      rw [hc.state]
      exact Or.inl rfl
  | repaired text repair resolutions updated h hk ho hp hr =>
      exact Or.inr ⟨text, repair, resolutions, hk, ho, hp, hr⟩

/-- Every resolution of a state was recorded by a completed repair. -/
def Resolutions (seed : ReviewSeed) (attempts : List ReviewAttempt) (state : ReviewState) : Prop :=
  ∀ record ∈ state.resolutions, ∃ earlier invocation completion before repair,
    RepairPass seed attempts earlier invocation completion before repair record

theorem Resolutions.append {attempts : List ReviewAttempt} {state : ReviewState}
    (h : Resolutions seed attempts state) (rest : List ReviewAttempt) :
    Resolutions seed (attempts ++ rest) state := by
  intro record hm
  obtain ⟨earlier, invocation, completion, before, repair, hp⟩ := h record hm
  exact ⟨earlier, invocation, completion, before, repair, hp.append rest⟩

theorem Resolutions.advance {attempts : List ReviewAttempt} {pending : Invocation}
    {state : ReviewState} (h : Resolutions seed (attempts ++ [⟨pending, none⟩]) state) :
    Resolutions seed attempts state := by
  intro record hm
  obtain ⟨earlier, invocation, completion, before, repair, hp⟩ := h record hm
  exact ⟨earlier, invocation, completion, before, repair, hp.advance⟩

theorem Ledger.resolutions {attempts : List ReviewAttempt} {state : ReviewState}
    (h : Ledger seed attempts state) : Resolutions seed attempts state := by
  refine Ledger.rule (motive := Resolutions seed) ?_ ?_ ?_ h
  · intro _ record hm
    exact absurd hm List.not_mem_nil
  · intro attempts state invocation _ _ ih
    exact ih.append _
  · intro attempts state invocation completion settled hl hnext _ _ ho ih record hm
    rw [capacity_resolutions] at hm
    rcases ho.resolutions with heq | ⟨text, repair, resolutions, hk, hout, hparse, hr⟩
    · rw [heq] at hm
      exact ih.advance.append _ record hm
    · have hmem : record ∈ state.resolutions ++ resolutions := by
        rw [hr.state] at hm
        exact hm
      rcases List.mem_append.mp hmem with hold | hnew
      · exact ih.advance.append _ record hold
      · exact ⟨_, _, _, _, _, repairPass_of_repaired hl hnext hk hout hparse hr hnew⟩

/-- How the ledger accounts for a closed finding: a credited review after a repair. -/
structure Closure (seed : ReviewSeed) (attempts : List ReviewAttempt) (item : FindingRecord)
    (closedBy : Digest) (earlier : List ReviewAttempt) (invocation : Invocation)
    (completion : Completion) (before : ReviewState) (report : ReviewReport)
    (repair : RepairReport) (record : ResolutionRecord) (recheck : FindingRecheck) : Prop where
  review : ReviewPass seed attempts earlier invocation completion before report
  /-- the repair is completed before the review starts -/
  repaired : ∃ earlier' invocation' completion' before',
    RepairPass seed earlier earlier' invocation' completion' before' repair record
  closedBy : closedBy = contentDigest report
  fingerprint : record.resolution.fingerprint = item.fingerprint
  reportDigest : record.resolution.reportDigest = item.reportDigest
  artifact : report.binding.artifactDigest = contentDigest repair.artifact
  rechecked : recheck ∈ report.rechecks
  recheckFingerprint : recheck.fingerprint = item.fingerprint
  pass : recheck.status = .pass
  check : recheck.check = item.finding.requiredRecheck
  resolutionDigest : recheck.resolutionDigest = contentDigest record.resolution
  criterion : item.blocking = true → ∃ c ∈ report.criteria,
    c.criterionId = item.finding.criterionId ∧ c.status = .pass

theorem Closure.advance {attempts : List ReviewAttempt} {pending : Invocation}
    {item : FindingRecord} {closedBy : Digest} {earlier : List ReviewAttempt}
    {invocation : Invocation} {completion : Completion} {before : ReviewState}
    {report : ReviewReport} {repair : RepairReport} {record : ResolutionRecord}
    {recheck : FindingRecheck}
    (h : Closure seed (attempts ++ [⟨pending, none⟩]) item closedBy earlier invocation completion
      before report repair record recheck) :
    Closure seed attempts item closedBy earlier invocation completion before report repair record
      recheck :=
  { h with review := h.review.advance }

theorem Closure.append {attempts : List ReviewAttempt} {item : FindingRecord} {closedBy : Digest}
    {earlier : List ReviewAttempt} {invocation : Invocation} {completion : Completion}
    {before : ReviewState} {report : ReviewReport} {repair : RepairReport}
    {record : ResolutionRecord} {recheck : FindingRecheck}
    (h : Closure seed attempts item closedBy earlier invocation completion before report repair
      record recheck) (rest : List ReviewAttempt) :
    Closure seed (attempts ++ rest) item closedBy earlier invocation completion before report
      repair record recheck :=
  { h with review := h.review.append rest }

/-- Every closed finding of a state is accounted for. -/
def Closures (seed : ReviewSeed) (attempts : List ReviewAttempt) (state : ReviewState) : Prop :=
  ∀ item ∈ state.findings, ∀ d, item.closedBy = some d →
    ∃ earlier invocation completion before report repair record recheck,
      Closure seed attempts item d earlier invocation completion before report repair record recheck

theorem Closures.append {attempts : List ReviewAttempt} {state : ReviewState}
    (h : Closures seed attempts state) (rest : List ReviewAttempt) :
    Closures seed (attempts ++ rest) state := by
  intro item hm d hd
  obtain ⟨_, _, _, _, _, _, _, _, hc⟩ := h item hm d hd
  exact ⟨_, _, _, _, _, _, _, _, hc.append rest⟩

theorem Closures.advance {attempts : List ReviewAttempt} {pending : Invocation}
    {state : ReviewState} (h : Closures seed (attempts ++ [⟨pending, none⟩]) state) :
    Closures seed attempts state := by
  intro item hm d hd
  obtain ⟨_, _, _, _, _, _, _, _, hc⟩ := h item hm d hd
  exact ⟨_, _, _, _, _, _, _, _, hc.advance⟩

omit [Sha256] [Pydantic] in
theorem mem_criteria_of_disposition {report : ReviewReport} {criterionId : Identifier}
    {status : Disposition} (h : report.disposition? criterionId = some status) :
    ∃ c ∈ report.criteria, c.criterionId = criterionId ∧ c.status = status := by
  unfold ReviewReport.disposition? at h
  obtain ⟨c, hc, hs⟩ := Option.map_eq_some_iff.mp h
  obtain ⟨hid, hm⟩ := Dict.key_of_lookup_ofValues hc
  exact ⟨c, hm, hid, hs⟩

/-- A passed recheck in a credited report accounts for the closure it makes. -/
theorem closure_of_passedRecheck {attempts : List ReviewAttempt} {invocation : Invocation}
    {completion : Completion} {state : ReviewState} {report : ReviewReport}
    {existing : FindingRecord} {recheck : FindingRecheck} {record : ResolutionRecord}
    (hresolutions : Resolutions seed attempts state)
    (hpass : ReviewPass seed (attempts ++ [⟨invocation, some completion⟩]) attempts invocation
      completion state report)
    (h : PassedRecheck (account state invocation completion).1 report existing recheck record) :
    ∃ repair, Closure seed (attempts ++ [⟨invocation, some completion⟩])
      (closeRecord report existing) (contentDigest report) attempts invocation completion state
      report repair record recheck := by
  obtain ⟨earlier', invocation', completion', before', repair, hr⟩ := hresolutions record h.recorded
  exact ⟨repair,
    { review := hpass
      repaired := ⟨earlier', invocation', completion', before', hr⟩
      closedBy := rfl
      fingerprint := h.resolves
      reportDigest := h.reportDigest
      artifact := h.artifact.symm.trans hr.artifact
      rechecked := h.delivered
      recheckFingerprint := h.fingerprint
      pass := h.pass
      check := h.check
      resolutionDigest := h.resolutionDigest.symm
      criterion := fun hb => mem_criteria_of_disposition (h.criterion hb) }⟩

theorem Ledger.closures {attempts : List ReviewAttempt} {state : ReviewState}
    (h : Ledger seed attempts state) : Closures seed attempts state := by
  refine Ledger.rule (motive := Closures seed) ?_ ?_ ?_ h
  · intro _ item hm
    exact absurd hm List.not_mem_nil
  · intro attempts state invocation _ _ ih
    exact ih.append _
  · intro attempts state invocation completion settled hl hnext _ _ ho ih item hm d hd
    rw [capacity_findings] at hm
    have hold := ih.advance.append [⟨invocation, some completion⟩]
    cases ho.inspection with
    | untouched hf hr =>
        rw [hf] at hm
        exact hold item hm d hd
    | retained report hb hf hr ht =>
        have hacc : Keyed (account state invocation completion).1.findings := hl.keyed
        have hkeyed :
            Keyed (retainStops seed (account state invocation completion).1 report).findings :=
          retainStops_keyed hb.findings hacc
        rw [hf] at hm
        rcases retainStops_cases hb.findings (hkeyed.recordOf_iff.mpr ⟨hm, rfl⟩) with
          hrec | ⟨finding, -, -, -, hitem⟩
        · exact hold item (mem_of_recordOf hrec) d hd
        · rw [hitem] at hd
          cases hd
    | credited text report hclean hk hout hparse hb hc hrec hr =>
        have hpass := reviewPass_of_credited hl hnext hclean hk hout hparse hb hc hr
        rcases hrec.closed (hrec.keyed.recordOf_iff.mpr ⟨hm, rfl⟩) hd with
          hsame | ⟨existing, recheck, record, -, hpassed, rfl⟩
        · exact hold item (mem_of_recordOf hsame) d hd
        · obtain ⟨repair, hclosure⟩ := closure_of_passedRecheck hl.resolutions.advance hpass hpassed
          obtain rfl := Option.some.inj hd
          exact ⟨_, _, _, _, _, repair, record, recheck, hclosure⟩

/-! ## 4. What an ELIGIBLE decision rests on -/

/-- The credited reports of a session, each earned by an attempt of its own. -/
structure Earned (session : ReviewSession) (credits : List (ReviewAttempt × ReviewReport)) :
    Prop where
  passes : Passes session.seed session.attempts session.state credits
  enough : 2 ≤ session.seed.policy.minReviewPasses ∧
    session.seed.policy.minReviewPasses ≤ credits.length
  different : (credits.map fun credit => credit.1.invocation.invocationId).Nodup
  /-- independence of the producers of the artifact the session has now -/
  independent : ∀ credit ∈ credits,
    independent session.seed session.state.artifact credit.1.invocation.actor = .ok ()

/-- A report accepts an artifact: it is bound to it, and rates every mandatory criterion
    PASS with all the evidence the criterion requires. -/
structure Accepts (seed : ReviewSeed) (artifact : ArtifactRef) (report : ReviewReport) :
    Prop where
  bound : report.binding = artifact.binding
  verdict : report.verdict = .accept
  mandatory : ∀ c ∈ seed.contract.criteria, c.mandatory = true →
    ∃ item ∈ report.criteria, item.criterionId = c.criterionId ∧ item.status = .pass ∧
      ∀ id ∈ c.requiredEvidence, ∃ e ∈ item.evidence,
        e.evidenceId = id ∧ e.artifactDigest = contentDigest artifact

theorem ReviewPass.accepts {attempts earlier : List ReviewAttempt} {invocation : Invocation}
    {completion : Completion} {before : ReviewState} {report : ReviewReport}
    {artifact : ArtifactRef}
    (h : ReviewPass seed attempts earlier invocation completion before report)
    (hb : report.binding = artifact.binding) (hm : ¬ unmetCriteria seed report) :
    Accepts seed artifact report where
  bound := hb
  verdict := by
    by_contra hv
    exact hm (Or.inl hv)
  mandatory := fun c hc hmand => by
    obtain ⟨item, hi, hid, hd⟩ := h.covering.covered c hc
    have hmem : item.criterionId ∈
        (seed.contract.criteria.filter (·.mandatory)).map (·.criterionId) :=
      List.mem_map.mpr ⟨c, List.mem_filter.mpr ⟨hc, hmand⟩, hid.symm⟩
    have hpass : item.status = .pass := by
      by_contra hs
      exact hm (Or.inr ⟨item, hi, hs, hmem⟩)
    refine ⟨item, hi, hid, hpass, fun id hreq => ?_⟩
    obtain ⟨e, he, heid⟩ := evidence_of_validateDisposition hd hpass id hreq
    refine ⟨e, he, heid, ?_⟩
    rw [h.bound.criteriaEvidence item hi e he, hb]
    rfl

theorem Passes.earned_of_ledger {attempts : List ReviewAttempt} {state : ReviewState}
    {credits : List (ReviewAttempt × ReviewReport)} (h : Passes seed attempts state credits)
    (hl : Ledger seed attempts state)
    (hmin : seed.policy.minReviewPasses ≤ state.validCompletedReports.length) :
    Earned ⟨seed, attempts, state⟩ credits where
  passes := h
  enough := by
    refine ⟨seed.policy.minReviewPasses_ge, ?_⟩
    rw [← List.length_map Prod.snd, h.reports]
    exact hmin
  different := by
    obtain ⟨hids, hn⟩ := hl.numbered
    rw [hids] at hn
    have hsub := (h.ordered.map (·.invocation.invocationId)).nodup hn
    rwa [List.map_map] at hsub
  independent := fun credit hc => by
    obtain ⟨earlier, invocation, completion, before, hsome, hpass⟩ := h.earned credit hc
    have hprod : state.artifact.producers = before.artifact.producers :=
      hl.producers.trans hpass.place.ledger.producers.symm
    show NokincFactory.independent seed state.artifact credit.1.invocation.actor = .ok ()
    rw [hsome, independent_congr hprod]
    exact hpass.independent

/-! ## 5. What becomes of a blocker -/

omit [Pydantic] in
theorem applyFinding_blocking {state : ReviewState} {report : ReviewReport} {finding : Finding}
    {item item' : FindingRecord}
    (h : applyFinding seed state report finding (some item) = some item')
    (hb : item.blocking = true) : item'.blocking = true := by
  unfold applyFinding at h
  dsimp only at h
  split at h
  · obtain rfl := Option.some.inj h
    simp [hb]
  · split at h
    · obtain rfl := Option.some.inj h
      simp [hb]
    · cases h

omit [Pydantic] in
/-- No report takes the blocking flag of a record. -/
theorem reportedRecord_blocking {state : ReviewState} (report : ReviewReport) (k : Digest)
    {item : FindingRecord} (hb : item.blocking = true) :
    ∃ item', reportedRecord seed state report k (some item) = some item' ∧
      item'.blocking = true := by
  unfold reportedRecord
  cases hf : report.findings.find? (fun f => f.fingerprint = k) with
  | none => exact ⟨item, rfl, hb⟩
  | some finding =>
      cases ha : applyFinding seed state report finding (some item) with
      | none => exact ⟨item, by simp [ha], hb⟩
      | some item' => exact ⟨item', by simp [ha], applyFinding_blocking ha hb⟩

/-- A finding has a record that blocks, open or closed. -/
def Blocks (state : ReviewState) (k : Digest) : Prop :=
  ∃ item, recordOf state.findings k = some item ∧ item.blocking = true

omit [Pydantic] in
theorem Reconciled.blocks {state : ReviewState} {report : ReviewReport}
    {findings : List FindingRecord} {terminal : List ReviewReason} {k : Digest}
    (h : Reconciled seed state report findings terminal) (hb : Blocks state k) :
    ∃ item, recordOf findings k = some item ∧ item.blocking = true := by
  obtain ⟨item, hi, hb⟩ := hb
  obtain ⟨entry, hre, hk⟩ := h.pointwise k
  rw [hi] at hre
  have hentry : ∃ item', entry = some item' ∧ item'.blocking = true := by
    cases hre with
    | kept => exact ⟨item, rfl, hb⟩
    | passed existing recheck resolution hp => exact ⟨_, rfl, hb⟩
  obtain ⟨item', rfl, hb'⟩ := hentry
  obtain ⟨item'', hr, hb''⟩ := reportedRecord_blocking report k hb'
  rw [hr] at hk
  exact ⟨_, hk, (counted_blocking item'').trans hb''⟩

theorem Inspection.blocks {state settled : ReviewState} {invocation : Invocation}
    {completion : Completion} {k : Digest}
    (h : Inspection seed state invocation completion settled) (hb : Blocks state k) :
    Blocks settled k := by
  cases h with
  | untouched hf hr =>
      obtain ⟨item, hi, hblocking⟩ := hb
      exact ⟨item, by rw [hf]; exact hi, hblocking⟩
  | retained report hbound hf hr ht =>
      obtain ⟨item, hi, hblocking⟩ := hb
      have hbefore : recordOf (account state invocation completion).1.findings k = some item := hi
      obtain ⟨item', hi', heq⟩ := retainStops_present seed hbound.findings hbefore
      refine ⟨item', by rw [hf]; exact hi', ?_⟩
      rcases heq with rfl | ⟨-, hb', -⟩
      · exact hblocking
      · exact hb'
  | credited text report hclean hk ho hp hbound hc hrec hr =>
      have hbefore : Blocks (account state invocation completion).1 k := hb
      exact hrec.blocks hbefore

theorem Advance.blocks {session session' : ReviewSession} (h : Advance session session')
    {k : Digest} (hb : Blocks session.state k) : Blocks session'.state k := by
  cases h with
  | redelivered => exact hb
  | reserve invocation h => exact hb
  | complete earlier invocation completion state hl hc =>
      obtain ⟨pending, settled, hp, -, ho, rfl⟩ := complete_ok hc
      obtain ⟨item, hi, hblocking⟩ := ho.inspection.blocks hb
      exact ⟨item, by rw [capacity_findings]; exact hi, hblocking⟩

/-- The last attempt of the ledger is the credited review that closed `item`, and the
    ledger accounts for it. -/
def ClosedLast (session : ReviewSession) (item : FindingRecord) : Prop :=
  ∃ earlier invocation completion before report repair record recheck,
    session.attempts = earlier ++ [⟨invocation, some completion⟩] ∧
      Closure session.seed session.attempts (closeRecord report item) (contentDigest report)
        earlier invocation completion before report repair record recheck ∧
      recordOf session.state.findings item.fingerprint = some (closeRecord report item)

/-- One step leaves an open blocker standing, or closes it by a recheck it has earned. -/
theorem Advance.standing {session session' : ReviewSession} (hs : Recorded session)
    (h : Advance session session') {k : Digest} {item : FindingRecord}
    (hi : Stands session.state k item) :
    (∃ item', Stands session'.state k item') ∨ ClosedLast session' item := by
  have hs' := h.recorded hs
  obtain ⟨hrecord, hopen, hblocking⟩ := hi
  cases h with
  | redelivered => exact Or.inl ⟨item, hrecord, hopen, hblocking⟩
  | reserve invocation h => exact Or.inl ⟨item, hrecord, hopen, hblocking⟩
  | complete earlier invocation completion state hl hc =>
      obtain ⟨pending, settled, hp, -, ho, rfl⟩ := complete_ok hc
      have hledger : Ledger session.seed (earlier ++ [⟨invocation, none⟩]) session.state := by
        rw [← hl]
        exact hs
      obtain rfl := Option.some.inj (hledger.pending_last.symm.trans hp)
      have hbefore : recordOf (account session.state invocation completion).1.findings k =
          some item := hrecord
      cases ho.inspection with
      | untouched hf hr =>
          refine Or.inl ⟨item, ?_, hopen, hblocking⟩
          rw [capacity_findings, hf]
          exact hrecord
      | retained report hb hf hr ht =>
          obtain ⟨item', hi', heq⟩ := retainStops_present session.seed hb.findings hbefore
          refine Or.inl ⟨item', ?_, ?_⟩
          · rw [capacity_findings, hf]
            exact hi'
          · rcases heq with rfl | ⟨ho', hb', -⟩
            · exact ⟨hopen, hblocking⟩
            · exact ⟨ho', hb'⟩
      | credited text report hclean hk hout hparse hb hcr hrec hr =>
          obtain ⟨item', hi', hb', hcase⟩ := hrec.openBlocker hbefore hopen hblocking
          rcases hcase with ⟨ho', -⟩ | ⟨rfl, recheck, record, hpassed⟩
          · refine Or.inl ⟨item', ?_, ho', hb'⟩
            rw [capacity_findings]
            exact hi'
          · have hpass := reviewPass_of_credited hledger hs' hclean hk hout hparse hb hcr hr
            obtain ⟨repair, hclosure⟩ :=
              closure_of_passedRecheck hledger.resolutions.advance hpass hpassed
            refine Or.inr ⟨earlier, invocation, completion, session.state, report, repair, record,
              recheck, rfl, hclosure, ?_⟩
            rw [fingerprint_of_recordOf hrecord]
            exact (congrArg (recordOf · k) (capacity_findings _ _)).trans hi'

end Provenance

/-! ## 6. The two results -/

/-- **Soundness of ELIGIBLE.** -/
theorem eligible_sound [Sha256] [Pydantic] {session : ReviewSession} {observed : ArtifactRef}
    {now : Datetime} {decision : ReviewDecision} (h : sessions.Reachable session)
    (he : evaluate session observed now = .ok decision) (hd : decision.status = .eligible) :
    session.state.pending = none ∧ (∀ a ∈ session.attempts, a.completion ≠ none) ∧
      session.state.terminalReasons = [] ∧ observed = session.state.artifact ∧
      ∃ credits, Earned session credits ∧
        ∃ latest, (credits.map Prod.snd).getLast? = some latest ∧
          Accepts session.seed session.state.artifact latest := by
  have hs := recorded_of_reachable h
  obtain ⟨-, at', -, rfl⟩ := evaluate_ok.mp he
  have hreasons := decisionStatus_eligible.mp hd
  unfold decisionReasons at hreasons
  obtain ⟨⟨hnil, hdrift⟩, -⟩ : (eligibilityReasons session.seed session.state = [] ∧ _) ∧ _ := by
    rwa [List.append_eq_nil_iff, List.append_eq_nil_iff] at hreasons
  have heligible := eligibilityReasons_eq_nil.mp hnil
  obtain ⟨latest, hlast, hbind, hmet⟩ := heligible.latest
  obtain ⟨credits, hp⟩ := hs.passes
  refine ⟨heligible.pending, ?_, heligible.terminal, ?_, credits,
    hp.earned_of_ledger hs heligible.passes, latest, ?_, ?_⟩
  · rcases hs.settled with ⟨-, hall⟩ | ⟨earlier, invocation, -, hpend, -⟩
    · exact hall
    · rw [heligible.pending] at hpend
      cases hpend
  · by_contra hne
    rw [if_pos hne] at hdrift
    cases hdrift
  · rw [hp.reports]
    exact hlast
  · have hmem : latest ∈ credits.map Prod.snd := by
      rw [hp.reports]
      exact List.mem_of_getLast? hlast
    obtain ⟨credit, hc, rfl⟩ := List.mem_map.mp hmem
    obtain ⟨_, _, _, _, -, hpass⟩ := hp.earned credit hc
    exact hpass.accepts hbind hmet

open Fixture in
theorem eligible_accepted :
    let session : ReviewSession := ⟨seed, [rejecting, repairing, accepting], accepted⟩
    ∃ credits, Earned session credits ∧ credits.length = 2 := by
  have h := reachable_of_ledger ledger_accepted
  have he : ∃ decision, evaluate ⟨seed, [rejecting, repairing, accepting], accepted⟩
      (artifact "v2") (clock 8).datetime = .ok decision ∧ decision.status = .eligible := by
    refine ⟨_, evaluate_ok.mpr ⟨validateSession_iff.mpr ⟨ledger_accepted, rfl⟩, _,
      utc_datetime _, rfl⟩, ?_⟩
    decide +kernel
  obtain ⟨decision, he, hd⟩ := he
  obtain ⟨-, -, -, -, credits, hearned, -⟩ := eligible_sound h he hd
  refine ⟨credits, hearned, ?_⟩
  rw [← List.length_map Prod.snd, hearned.passes.reports]
  rfl

/-- **No self-closing of findings.** A closed finding was closed by a credited review after
    a repair; a step closes an open blocker only so, and no run loses a blocker. -/
theorem closed_by_recheck [Sha256] [Pydantic] {session : ReviewSession}
    (h : sessions.Reachable session) :
    Closures session.seed session.attempts session.state ∧
      (∀ next k item, sessions.step session next → Stands session.state k item →
        (∃ item', Stands next.state k item') ∨ ClosedLast next item) ∧
      ∀ later k, sessions.Steps session later → Blocks session.state k → Blocks later.state k := by
  have hs := recorded_of_reachable h
  refine ⟨hs.closures, fun next k item hstep hi => (advance_of_step hstep).standing hs hi, ?_⟩
  intro later k hrun hb
  exact System.Steps.stable (I := fun s => Blocks s.state k)
    (fun _ _ _ hb hstep => (advance_of_step hstep).blocks hb) h hrun hb

open Fixture in
theorem closed_accepted :
    Closures seed [rejecting, repairing, accepting] accepted ∧
      ∃ item ∈ accepted.findings, item.closedBy = some (contentDigest acceptance) := by
  exact ⟨(closed_by_recheck (reachable_of_ledger ledger_accepted)).1,
    closeRecord acceptance record, List.mem_singleton_self _, rfl⟩

end NokincFactory
