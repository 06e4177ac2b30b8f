/-
  File:      NokincFactory/Session/Findings.lean
  Subject:   The findings of a session along its runs, and how often a blocker may come back.

  * `Inspection`: the three things a completion can do to the findings;
  * `Counted`: the invariant of the repeated-blocker breaker;
  * `repeated_blocker_stops`: the breaker stops the session and stays.
-/
import NokincFactory.Session.Budget

namespace NokincFactory

section Findings

variable [Sha256] [Pydantic] {seed : ReviewSeed}

/-! ## 1. What a completion does to the findings -/

/-- A completion leaves the findings alone, retains the stops of a bound report, or
    reconciles them with a credited one. -/
inductive Inspection (seed : ReviewSeed) (state : ReviewState) (invocation : Invocation)
    (completion : Completion) (settled : ReviewState) : Prop where
  | untouched (hf : settled.findings = state.findings)
      (hr : settled.validCompletedReports = state.validCompletedReports)
  | retained (report : ReviewReport)
      (hb : BoundReport seed (account state invocation completion).1 invocation report)
      (hf : settled.findings =
        (retainStops seed (account state invocation completion).1 report).findings)
      (hr : settled.validCompletedReports = state.validCompletedReports)
      (ht : ∀ r ∈ stopReasons seed report, r ∈ settled.terminalReasons)
  | credited (text : String) (report : ReviewReport)
      (hclean : Clean seed state invocation completion) (hk : invocation.kind = .review)
      (ho : completion.outputJson = some text)
      (hp : ReviewReport.modelValidateJson text = .ok report)
      (hb : BoundReport seed (account state invocation completion).1 invocation report)
      (hc : Credited seed (account state invocation completion).1 report settled)
      (h : Reconciled seed (account state invocation completion).1 report settled.findings
        settled.terminalReasons)
      (hr : settled.validCompletedReports = state.validCompletedReports ++ [report])

theorem Outcome.inspection {state settled : ReviewState} {invocation : Invocation}
    {completion : Completion} (h : Outcome seed state invocation completion settled) :
    Inspection seed state invocation completion settled := by
  cases h with
  | stopped stop h => exact .untouched rfl rfl
  | faulted reason hn h => exact .untouched rfl rfl
  | refused exc h hunbound hmissing hrepair => exact .untouched rfl rfl
  | uncredited text report exc h hk ho hb hc =>
      refine .retained report (boundReport_ok.mp hb).2 rfl ?_ fun r hr => ?_
      · rw [failure_validCompletedReports, retainStops_frame]
        rfl
      · exact mem_failure_terminal.mpr (Or.inl (mem_retainStops_terminal.mpr (Or.inr hr)))
  | credited text report updated h hk ho hb hc =>
      obtain ⟨hp, hbound⟩ := boundReport_ok.mp hb
      refine .credited text report h hk ho hp hbound hc
        (reconcileFindings_ok hbound.findings hbound.rechecks hc.reconciled) ?_
      rw [hc.state]
      rfl
  | repaired text repair resolutions updated h hk ho hp hr =>
      rw [hr.state]
      exact .untouched rfl rfl

/-- A finding is open and blocking. -/
def Stands (state : ReviewState) (k : Digest) (item : FindingRecord) : Prop :=
  recordOf state.findings k = some item ∧ item.closedBy = none ∧ item.blocking = true

omit [Pydantic] in
theorem stands_singleton {state : ReviewState} {k : Digest} {item : FindingRecord}
    (hs : state.findings = [item]) (hk : item.fingerprint = k) (ho : item.closedBy = none)
    (hb : item.blocking = true) : Stands state k item := by
  have hkeyed : Keyed state.findings := by
    rw [hs]
    exact List.nodup_singleton _
  refine ⟨hkeyed.recordOf_iff.mpr ⟨?_, hk⟩, ho, hb⟩
  rw [hs]
  exact List.mem_singleton_self _

omit [Pydantic] in
/-- What the retention of stops makes of the record of one fingerprint. -/
theorem retainStops_cases {state : ReviewState} {report : ReviewReport}
    (hn : (report.findings.map (·.fingerprint)).Nodup) {k : Digest} {item : FindingRecord}
    (hi : recordOf (retainStops seed state report).findings k = some item) :
    recordOf state.findings k = some item ∨
      ∃ finding ∈ report.findings, stopFinding seed finding ∧ finding.fingerprint = k ∧
        item = { finding, reportDigest := contentDigest report, blocking := true,
                 occurrences := ((recordOf state.findings k).map (·.occurrences)).getD 0 } := by
  rw [retainStops_recordOf hn] at hi
  rcases Option.or_eq_some_iff.mp hi with h | ⟨-, h⟩
  · obtain ⟨finding, hf, hr⟩ := Option.bind_eq_some_iff.mp h
    obtain ⟨hm, hfp⟩ := fingerprint_of_find hf
    unfold retainFinding at hr
    by_cases hs : stopFinding seed finding
    · rw [if_pos hs] at hr
      exact Or.inr ⟨finding, hm, hs, hfp, (Option.some.inj hr).symm⟩
    · rw [if_neg hs] at hr
      cases hr
  · exact Or.inl h

omit [Pydantic] in
/-- Retaining stops loses no record, and no count of one. -/
theorem retainStops_present (seed : ReviewSeed) {state : ReviewState} {report : ReviewReport}
    (hn : (report.findings.map (·.fingerprint)).Nodup) {k : Digest} {item : FindingRecord}
    (hi : recordOf state.findings k = some item) :
    ∃ item', recordOf (retainStops seed state report).findings k = some item' ∧
      (item' = item ∨ (item'.closedBy = none ∧ item'.blocking = true ∧
        item'.occurrences = item.occurrences)) := by
  rw [retainStops_recordOf hn, hi]
  cases hf : report.findings.find? (fun f => f.fingerprint = k) with
  | none => exact ⟨item, rfl, Or.inl rfl⟩
  | some finding =>
      by_cases hs : stopFinding seed finding
      · refine ⟨{ finding, reportDigest := contentDigest report, blocking := true,
                  occurrences := item.occurrences }, ?_, Or.inr ⟨rfl, rfl, rfl⟩⟩
        simp [retainFinding, hs]
      · refine ⟨item, ?_, Or.inl rfl⟩
        simp [retainFinding, hs]

/-! ## 2. The repeated-blocker breaker -/

/-- Occurrence counts against the policy's limit. -/
structure Counted (seed : ReviewSeed) (state : ReviewState) : Prop where
  below : state.terminalReasons = [] →
    ∀ item ∈ state.findings, item.occurrences < seed.policy.sameUnresolvedFailureLimit
  seen : state.terminalReasons = [] →
    ∀ item ∈ state.findings, item.closedBy = none → item.blocking = true → 1 ≤ item.occurrences
  stopped : ∀ item ∈ state.findings, overdue seed item →
    ReviewReason.repeatedFailure ∈ state.terminalReasons

/-- A record has the count of the record before it, or none. -/
def KeepsCount (before : Option FindingRecord) (item : FindingRecord) : Prop :=
  item.occurrences = 0 ∨ ∃ previous, before = some previous ∧
    item.occurrences = previous.occurrences

omit [Pydantic] in
theorem KeepsCount.below {state : ReviewState} {k : Digest} {item : FindingRecord} {limit : Nat}
    (h : KeepsCount (recordOf state.findings k) item) (hpos : 1 ≤ limit)
    (hall : ∀ item ∈ state.findings, item.occurrences < limit) : item.occurrences < limit := by
  rcases h with h0 | ⟨previous, hp, hocc⟩
  · omega
  · rw [hocc]
    exact hall previous (mem_of_recordOf hp)

omit [Pydantic] in
theorem retainStops_keepsCount {state : ReviewState} {report : ReviewReport}
    (hn : (report.findings.map (·.fingerprint)).Nodup) {k : Digest} {item : FindingRecord}
    (hi : recordOf (retainStops seed state report).findings k = some item) :
    KeepsCount (recordOf state.findings k) item := by
  rcases retainStops_cases hn hi with hold | ⟨finding, -, -, -, rfl⟩
  · exact Or.inr ⟨item, hold, rfl⟩
  · cases hprev : recordOf state.findings k with
    | none => exact Or.inl rfl
    | some previous => exact Or.inr ⟨previous, rfl, rfl⟩

omit [Pydantic] in
/-- The findings loop keeps the count of a record or starts it over. -/
theorem reportedRecord_keepsCount {state : ReviewState} {report : ReviewReport} {k : Digest}
    {entry : Option FindingRecord} {item : FindingRecord}
    (h : reportedRecord seed state report k entry = some item) : KeepsCount entry item := by
  unfold reportedRecord at h
  rcases Option.or_eq_some_iff.mp h with h | ⟨-, h⟩
  · obtain ⟨finding, -, hr⟩ := Option.bind_eq_some_iff.mp h
    cases entry with
    | none =>
        obtain rfl := Option.some.inj hr
        exact Or.inl rfl
    | some previous =>
        unfold applyFinding at hr
        dsimp only at hr
        split at hr
        · obtain rfl := Option.some.inj hr
          exact Or.inr ⟨previous, rfl, rfl⟩
        · split at hr
          · obtain rfl := Option.some.inj hr
            exact Or.inl rfl
          · cases hr
  · exact Or.inr ⟨item, h, rfl⟩

omit [Pydantic] in
/-- A record that a credited report leaves uncounted keeps its count. -/
theorem Reconciled.uncounted {state : ReviewState} {report : ReviewReport}
    {findings : List FindingRecord} {terminal : List ReviewReason}
    (h : Reconciled seed state report findings terminal) {k : Digest} {item : FindingRecord}
    (hi : recordOf findings k = some item)
    (hn : ¬ (item.closedBy = none ∧ item.blocking = true)) :
    KeepsCount (recordOf state.findings k) item := by
  obtain ⟨entry, hre, hk⟩ := h.pointwise k
  rw [hi] at hk
  obtain ⟨item', hr, rfl⟩ := Option.map_eq_some_iff.mp hk.symm
  rw [counted_closedBy, counted_blocking] at hn
  rw [counted_of_not hn]
  have hkeeps := reportedRecord_keepsCount hr
  generalize recordOf state.findings k = before at hre ⊢
  cases hre with
  | kept => exact hkeeps
  | passed existing recheck resolution hp =>
      -- closing a record does not touch its count
      rcases hkeeps with h0 | ⟨previous, hprev, hocc⟩
      · exact Or.inl h0
      · obtain rfl := Option.some.inj hprev
        exact Or.inr ⟨existing, rfl, hocc⟩

omit [Pydantic] in
theorem capacity_terminal_nil {state : ReviewState}
    (h : (capacity seed state).terminalReasons = []) : state.terminalReasons = [] := by
  refine List.eq_nil_iff_forall_not_mem.mpr fun r hr => ?_
  have hmem : r ∈ (capacity seed state).terminalReasons := mem_capacity_terminal.mpr (Or.inl hr)
  rw [h] at hmem
  exact List.not_mem_nil hmem

omit [Pydantic] in
theorem Counted.capacity {state : ReviewState} (h : Counted seed state) :
    Counted seed (capacity seed state) where
  below := fun hn => by
    rw [capacity_findings]
    exact h.below (capacity_terminal_nil hn)
  seen := fun hn => by
    rw [capacity_findings]
    exact h.seen (capacity_terminal_nil hn)
  stopped := fun item hi ho => by
    rw [capacity_findings] at hi
    exact mem_capacity_terminal.mpr (Or.inl (h.stopped item hi ho))

theorem Counted.settle {state settled : ReviewState} {invocation : Invocation}
    {completion : Completion} (h : Counted seed state) (hkeyed : Keyed state.findings)
    (hopen : state.terminalReasons = [])
    (hi : Inspection seed state invocation completion settled) : Counted seed settled := by
  have hbelow := h.below hopen
  have hpos := seed.policy.sameUnresolvedFailureLimit_ge
  cases hi with
  | untouched hf hr =>
      refine ⟨fun _ => ?_, fun _ => ?_, fun item hm ho => ?_⟩
      · rw [hf]
        exact hbelow
      · rw [hf]
        exact h.seen hopen
      · rw [hf] at hm
        exact absurd ho.2.2 (not_le.mpr (hbelow item hm))
  | retained report hb hf hr ht =>
      have hacc : Keyed (account state invocation completion).1.findings := hkeyed
      have hkeyed' :
          Keyed (retainStops seed (account state invocation completion).1 report).findings :=
        retainStops_keyed hb.findings hacc
      have hall : ∀ item ∈ settled.findings,
          item.occurrences < seed.policy.sameUnresolvedFailureLimit := by
        intro item hm
        rw [hf] at hm
        have hkeeps := retainStops_keepsCount hb.findings (hkeyed'.recordOf_iff.mpr ⟨hm, rfl⟩)
        exact hkeeps.below hpos hbelow
      refine ⟨fun _ => hall, fun hn item hm ho hbl => ?_, fun item hm ho => ?_⟩
      · rw [hf] at hm
        rcases retainStops_cases hb.findings (hkeyed'.recordOf_iff.mpr ⟨hm, rfl⟩) with
          hold | ⟨finding, hfm, hs, -, -⟩
        · exact h.seen hopen item (mem_of_recordOf hold) ho hbl
        · -- a retained stop has stopped the session
          obtain ⟨r, hr'⟩ := List.exists_mem_of_ne_nil _ (stopReasons_ne_nil hfm hs)
          have hmem := ht r hr'
          rw [hn] at hmem
          exact absurd hmem List.not_mem_nil
      · exact absurd ho.2.2 (not_le.mpr (hall item hm))
  | credited text report hclean hk ho hp hb hc hrec hr =>
      have hstopped : ∀ item ∈ settled.findings, overdue seed item →
          ReviewReason.repeatedFailure ∈ settled.terminalReasons := fun item hm ho =>
        (hrec.terminal _).mpr (Or.inl ⟨rfl, item, hm, ho⟩)
      refine ⟨fun hn item hm => ?_, fun _ item hm ho hbl => ?_, hstopped⟩
      · by_cases hopenb : item.closedBy = none ∧ item.blocking = true
        · by_contra hge
          have hmem := hstopped item hm ⟨hopenb.1, hopenb.2, not_lt.mp hge⟩
          rw [hn] at hmem
          exact List.not_mem_nil hmem
        · have hkeeps := hrec.uncounted (hrec.keyed.recordOf_iff.mpr ⟨hm, rfl⟩) hopenb
          exact hkeeps.below hpos hbelow
      · exact hrec.counted_pos (hrec.keyed.recordOf_iff.mpr ⟨hm, rfl⟩) ho hbl

theorem Ledger.counted {attempts : List ReviewAttempt} {state : ReviewState}
    (h : Ledger seed attempts state) : Counted seed state := by
  refine Ledger.rule (motive := fun _ state => Counted seed state) ?_ ?_ ?_ h
  · intro _
    exact ⟨fun _ item hm => absurd hm List.not_mem_nil,
      fun _ item hm => absurd hm List.not_mem_nil, fun item hm => absurd hm List.not_mem_nil⟩
  · intro attempts state invocation _ hr ih
    exact ⟨fun _ => ih.below hr.running, fun _ => ih.seen hr.running,
      fun item hm ho => ih.stopped item hm ho⟩
  · intro attempts state invocation completion settled hl _ hp _ ho ih
    have hopen := hl.running (by rw [hp]; exact Option.some_ne_none _)
    exact (ih.settle hl.keyed hopen ho.inspection).capacity

/-- Along one step, the count of a blocker grows by at least the reports credited. -/
theorem Advance.count_grows {session session' : ReviewSession} (h : Advance session session')
    {k : Digest} {item item' : FindingRecord}
    (hi : Stands session.state k item) (hi' : Stands session'.state k item') :
    item.occurrences + session'.state.validCompletedReports.length ≤
      item'.occurrences + session.state.validCompletedReports.length := by
  cases h with
  | redelivered =>
      obtain rfl := Option.some.inj (hi.1.symm.trans hi'.1)
      exact le_rfl
  | reserve invocation h =>
      obtain rfl := Option.some.inj (hi.1.symm.trans hi'.1)
      exact le_rfl
  | complete earlier invocation completion state hl hc =>
      obtain ⟨pending, settled, hp, -, ho, rfl⟩ := complete_ok hc
      obtain ⟨hrec', hopen', -⟩ := hi'
      rw [capacity_findings] at hrec'
      rw [capacity_validCompletedReports]
      cases ho.inspection with
      | untouched hf hr =>
          rw [hf] at hrec'
          obtain rfl := Option.some.inj (hi.1.symm.trans hrec')
          rw [hr]
      | retained report hb hf hr ht =>
          have hbefore : recordOf (account session.state pending completion).1.findings k =
              some item := hi.1
          obtain ⟨item'', hi'', heq⟩ := retainStops_present session.seed hb.findings hbefore
          rw [← hf] at hi''
          obtain rfl := Option.some.inj (hi''.symm.trans hrec')
          rw [hr]
          rcases heq with rfl | ⟨-, -, hocc⟩
          · exact le_rfl
          · rw [hocc]
      | credited text report hclean hk hout hparse hb hc' hrec hr =>
          have hbefore : recordOf (account session.state pending completion).1.findings k =
              some item := hi.1
          obtain ⟨item'', hi'', -, heq⟩ := hrec.openBlocker hbefore hi.2.1 hi.2.2
          obtain rfl := Option.some.inj (hi''.symm.trans hrec')
          rw [hr, List.length_append, List.length_singleton]
          rcases heq with ⟨-, hocc⟩ | ⟨rfl, -⟩
          · omega
          · cases hopen'

/-- A finding that a run keeps open and blocking has been counted once for every report
    credited since. -/
theorem count_along {session first last : ReviewSession} {k : Digest}
    (hs : Recorded session) (hstep : Advance session first)
    (hcredit : first.state.validCompletedReports.length =
      session.state.validCompletedReports.length + 1)
    (hfirst : ∃ item, Stands first.state k item)
    (hrun : Relation.ReflTransGen
      (fun s s' => Advance s s' ∧ ∃ item, Stands s'.state k item) first last) :
    Recorded last ∧ last.seed = session.seed ∧ ∃ item, Stands last.state k item ∧
      last.state.validCompletedReports.length ≤
        item.occurrences + session.state.validCompletedReports.length := by
  induction hrun with
  | refl =>
      refine ⟨hstep.recorded hs, hstep.seed_eq, ?_⟩
      obtain ⟨item, hi⟩ := hfirst
      refine ⟨item, hi, ?_⟩
      cases hstep with
      | redelivered => omega
      | reserve invocation h =>
          exact absurd hcredit (Nat.ne_of_lt (Nat.lt_succ_self _))
      | complete earlier invocation completion state hl hc =>
          obtain ⟨pending, settled, hp, -, ho, rfl⟩ := complete_ok hc
          rw [capacity_validCompletedReports] at hcredit
          obtain ⟨hrec', hopen', hbl'⟩ := hi
          rw [capacity_findings] at hrec'
          cases ho.inspection with
          | untouched hf hr =>
              rw [hr] at hcredit
              omega
          | retained report hb hf hr ht =>
              rw [hr] at hcredit
              omega
          | credited text report hclean hk hout hparse hb hc' hrec hr =>
              have hpos := hrec.counted_pos hrec' hopen' hbl'
              show (capacity _ settled).validCompletedReports.length ≤ _
              rw [capacity_validCompletedReports]
              omega
  | tail _ hstep' ih =>
      obtain ⟨hrec, hseed, item, hi, hle⟩ := ih
      obtain ⟨hadv, item', hi'⟩ := hstep'
      have hgrow := hadv.count_grows hi hi'
      exact ⟨hadv.recorded hrec, hadv.seed_eq.trans hseed, item', hi', by omega⟩

end Findings

/-- **The repeated-blocker breaker**: a running session has every open blocker counted
    below the limit, and a blocker that stays open over as many credited reviews as the
    limit allows has stopped the session. -/
theorem repeated_blocker_stops [Sha256] [Pydantic] {session : ReviewSession}
    (h : sessions.Reachable session) :
    (session.state.terminalReasons = [] → ∀ item ∈ session.state.openFindings,
      item.blocking = true → 1 ≤ item.occurrences ∧
        item.occurrences < session.seed.policy.sameUnresolvedFailureLimit) ∧
    ∀ first last k, sessions.step session first →
      first.state.validCompletedReports.length =
        session.state.validCompletedReports.length + 1 →
      (∃ item, Stands first.state k item) →
      Relation.ReflTransGen
        (fun s s' => sessions.step s s' ∧ ∃ item, Stands s'.state k item) first last →
      session.state.validCompletedReports.length +
        session.seed.policy.sameUnresolvedFailureLimit ≤
          last.state.validCompletedReports.length →
      ReviewReason.repeatedFailure ∈ last.state.terminalReasons := by
  have hs := recorded_of_reachable h
  refine ⟨fun hn item hi hb => ?_, fun first last k hstep hcredit hfirst hrun hlimit => ?_⟩
  · obtain ⟨hm, ho⟩ := mem_openFindings.mp hi
    exact ⟨hs.counted.seen hn item hm ho hb, hs.counted.below hn item hm⟩
  · have hadv := Relation.ReflTransGen.mono
      (fun _ _ hr => And.imp_left advance_of_step hr) _ _ hrun
    obtain ⟨hlast, hseed, item, hi, hle⟩ :=
      count_along hs (advance_of_step hstep) hcredit hfirst hadv
    refine hlast.counted.stopped item (mem_of_recordOf hi.1) ⟨hi.2.1, hi.2.2, ?_⟩
    rw [hseed]
    omega

open Fixture in
theorem repetition_stops :
    (∀ item ∈ rejected.openFindings, item.blocking = true →
      1 ≤ item.occurrences ∧ item.occurrences < seed.policy.sameUnresolvedFailureLimit) ∧
    ReviewReason.repeatedFailure ∈ repeated.terminalReasons := by
  have hreject : Ledger seed ([] ++ [rejecting]) rejected := ledger_rejected
  have hrepeat : Ledger seed ([rejecting] ++ [repeating]) repeated := ledger_repeated
  obtain ⟨held, hheld, -⟩ := hreject.uncomplete
  obtain ⟨held', hheld', -⟩ := hrepeat.uncomplete
  have hfresh : held.validCompletedReports.length = 0 := by
    obtain ⟨before, hb, -, rfl⟩ := hheld.unreserve
    obtain rfl := hb.deterministic ledger_fresh
    rfl
  have hrejected : Stands rejected finding.fingerprint record := stands_singleton rfl rfl rfl rfl
  have hheldStands : Stands held' finding.fingerprint record := by
    obtain ⟨before, hb, -, rfl⟩ := hheld'.unreserve
    obtain rfl := hb.deterministic ledger_rejected
    exact stands_singleton rfl rfl rfl rfl
  have hrepeated : Stands repeated finding.fingerprint
      { record with reportDigest := contentDigest repetition, occurrences := 2 } :=
    stands_singleton rfl rfl rfl rfl
  have hrun := Relation.ReflTransGen.head
    ⟨step_of_reserved ledger_rejected hheld', record, hheldStands⟩
    (Relation.ReflTransGen.single
      (r := fun s s' => sessions.step s s' ∧ ∃ item, Stands s'.state finding.fingerprint item)
      ⟨step_of_completed hheld' hrepeat, _, hrepeated⟩)
  refine ⟨(repeated_blocker_stops (reachable_of_ledger ledger_rejected)).1 rfl, ?_⟩
  refine (repeated_blocker_stops (reachable_of_ledger hheld)).2 ⟨seed, [rejecting], rejected⟩
    ⟨seed, [rejecting, repeating], repeated⟩ finding.fingerprint
    (step_of_completed hheld hreject) ?_ ⟨record, hrejected⟩ hrun ?_
  · show 1 = held.validCompletedReports.length + 1
    rw [hfresh]
  · show held.validCompletedReports.length + 2 ≤ 2
    rw [hfresh]

end NokincFactory
