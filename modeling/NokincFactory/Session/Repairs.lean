/-
  File:      NokincFactory/Session/Repairs.lean
  Subject:   A repair is installed as a whole, or not at all.

  * `Ledger.bound`: every artifact of a session is bound to its seed;
  * `Installed`: what an installed repair leaves of a session;
  * `Untouched`: what everything else leaves of it;
  * `repair_atomic`: a completion of a repair does one of the two, and the producers stay.
-/
import NokincFactory.Session.Replay

namespace NokincFactory

section Repairs

variable [Sha256] [Pydantic] {seed : ReviewSeed}

/-! ## 1. Artifacts that a session holds -/

/-- Every artifact of a session is bound to its seed. -/
theorem Ledger.bound {attempts : List ReviewAttempt} {state : ReviewState}
    (h : Ledger seed attempts state) : artifactBinding seed state.artifact = .ok () := by
  refine Ledger.rule (motive := fun _ state => artifactBinding seed state.artifact = .ok ())
    ?_ ?_ ?_ h
  · intro hv
    exact hv.bound
  · intro attempts state invocation _ _ ih
    exact ih
  · intro attempts state invocation completion settled hl _ _ _ ho ih
    rw [capacity_artifact]
    cases ho with
    | stopped stop h => exact ih
    | faulted reason hn h => exact ih
    | refused exc h hunbound hmissing hrepair => exact ih
    | uncredited text report exc h hk ho hb hc =>
        rw [failure_artifact, retainStops_frame]
        exact ih
    | credited text report updated h hk ho hb hc =>
        rw [hc.state]
        exact ih
    | repaired text repair resolutions updated h hk ho hp hr =>
        have hresolved := reconcileRepair_ok hl.keyed hr.reconciled
        rw [hr.state]
        exact hresolved.bound

/-- Every reviewer of a seed stays independent of what a session holds. -/
theorem Ledger.independent {attempts : List ReviewAttempt} {state : ReviewState}
    (h : Ledger seed attempts state) {reviewer : ModelIdentity} (hr : reviewer ∈ seed.reviewers) :
    NokincFactory.independent seed state.artifact reviewer = .ok () := by
  rw [independent_congr h.producers]
  exact h.validSeed.independent reviewer hr

/-! ## 2. What a completion of a repair leaves -/

/-- Artifact, findings, reports and resolutions are as they were. -/
structure Untouched (before after : ReviewState) : Prop where
  artifact : after.artifact = before.artifact
  findings : after.findings = before.findings
  reports : after.validCompletedReports = before.validCompletedReports
  resolutions : after.resolutions = before.resolutions

/-- The artifact is the delivered one, and its resolutions are recorded, all of them. -/
structure Installed (before after : ReviewState) (repair : RepairReport)
    (records : List ResolutionRecord) : Prop where
  artifact : after.artifact = repair.artifact
  artifactKey : after.artifact.artifactKey = before.artifact.artifactKey
  producers : after.artifact.producers = before.artifact.producers
  scope : after.artifact.scope = before.artifact.scope
  contract : after.artifact.contractDigest = before.artifact.contractDigest
  context : after.artifact.contextDigest = before.artifact.contextDigest
  findings : after.findings = before.findings
  reports : after.validCompletedReports = before.validCompletedReports
  resolutions : after.resolutions = before.resolutions ++ records
  /-- every open blocker is resolved -/
  blockers : ∀ item ∈ before.openFindings, item.blocking = true →
    ∃ record ∈ records, record.resolution.fingerprint = item.fingerprint
  /-- no finding is resolved twice -/
  once : (records.map (·.resolution.fingerprint)).Nodup
  /-- a resolution is of an open finding, as it stands, and of the new artifact -/
  each : ∀ record ∈ records, ∃ item ∈ before.openFindings,
    record.resolution.fingerprint = item.fingerprint ∧
      record.resolution.reportDigest = item.reportDigest ∧
      record.artifactDigest = contentDigest after.artifact ∧
      (record.resolution.disposition = .fixed →
        after.artifact.payloadDigest ≠ before.artifact.payloadDigest ∨
          after.artifact.inputs ≠ before.artifact.inputs ∨
          after.artifact.buildRefs ≠ before.artifact.buildRefs)

omit [Pydantic] in
/-- What a binding says of two artifacts of one session. -/
theorem bound_same {a b : ArtifactRef} (ha : artifactBinding seed a = .ok ())
    (hb : artifactBinding seed b = .ok ()) :
    a.scope = b.scope ∧ a.contractDigest = b.contractDigest ∧ a.contextDigest = b.contextDigest := by
  obtain ⟨hscope, hcontract, hcontext, -⟩ := require_ok.mp ha
  obtain ⟨hscope', hcontract', hcontext', -⟩ := require_ok.mp hb
  exact ⟨hscope.trans hscope'.symm, hcontract.trans hcontract'.symm,
    hcontext.trans hcontext'.symm⟩

omit [Sha256] [Pydantic] in
/-- What holds of each pair of two lists, of the lists as a whole. -/
theorem map_eq_of_forall₂ {α β γ : Type} {R : α → β → Prop} {f : α → γ} {g : β → γ} {l : List α}
    {l' : List β} (h : List.Forall₂ R l l') (hR : ∀ a b, R a b → g b = f a) :
    l'.map g = l.map f := by
  induction h with
  | nil => rfl
  | cons hab _ ih => rw [List.map_cons, List.map_cons, hR _ _ hab, ih]

/-- What is recorded for a repair. -/
theorem installed_of_repaired {attempts : List ReviewAttempt} {state updated : ReviewState}
    {invocation : Invocation} {completion : Completion} {repair : RepairReport}
    {records : List ResolutionRecord}
    (hl : Ledger seed (attempts ++ [⟨invocation, none⟩]) state)
    (h : Repaired seed (account state invocation completion).1 invocation repair records updated) :
    Installed state (capacity seed updated) repair records := by
  have hresolved := reconcileRepair_ok hl.keyed h.reconciled
  have hstate := h.state
  have hartifact : (capacity seed updated).artifact = repair.artifact := by
    rw [capacity_artifact, hstate]
  obtain ⟨hscope, hcontract, hcontext⟩ := bound_same hresolved.bound hl.bound
  have hfingerprints : records.map (·.resolution.fingerprint) =
      repair.resolutions.map FindingResolution.fingerprint := by
    refine map_eq_of_forall₂ hresolved.each fun resolution record h => ?_
    rw [h.1]
  refine ⟨hartifact, ?_, ?_, ?_, ?_, ?_, ?_, ?_, ?_, fun item hitem hblocking => ?_, ?_,
    fun record hrecord => ?_⟩
  · rw [hartifact]
    exact hresolved.artifactKey
  · rw [hartifact]
    exact hresolved.producers
  · rw [hartifact]
    exact hscope
  · rw [hartifact]
    exact hcontract
  · rw [hartifact]
    exact hcontext
  · rw [capacity_findings, hstate]
    rfl
  · rw [capacity_validCompletedReports, hstate]
    rfl
  · rw [capacity_resolutions, hstate]
    rfl
  · obtain ⟨resolution, hresolution, hfingerprint⟩ := hresolved.blockers item hitem hblocking
    have hmem : item.fingerprint ∈ records.map (·.resolution.fingerprint) := by
      rw [hfingerprints, ← hfingerprint]
      exact List.mem_map_of_mem hresolution
    obtain ⟨record, hrecord, hsame⟩ := List.mem_map.mp hmem
    exact ⟨record, hrecord, hsame⟩
  · rw [hfingerprints]
    exact hresolved.distinct
  · obtain ⟨resolution, -, hrow, item, hitem, hfingerprint, hreport, -, -, hfixed, -⟩ :=
      exists_of_forall₂ hresolved.each hrecord
    rw [hrow, hartifact]
    exact ⟨item, hitem, hfingerprint.symm, hreport, rfl, hfixed⟩

omit [Pydantic] in
/-- A completion that failed touches nothing. -/
theorem untouched_of_failure (state : ReviewState) (invocation : Invocation)
    (completion : Completion) (reason : ReviewReason) :
    Untouched state
      (capacity seed (failure seed (account state invocation completion).1 reason)) := by
  refine ⟨?_, ?_, ?_, ?_⟩
  · rw [capacity_artifact]
    rfl
  · rw [capacity_findings]
    rfl
  · rw [capacity_validCompletedReports]
    rfl
  · rw [capacity_resolutions]
    rfl

/-- A completion of a pending repair installs it, or leaves everything as it was. -/
theorem repair_outcome {attempts : List ReviewAttempt} {state settled : ReviewState}
    {invocation : Invocation} {completion : Completion}
    (hl : Ledger seed (attempts ++ [⟨invocation, none⟩]) state) (hk : invocation.kind = .repair)
    (h : Outcome seed state invocation completion settled) :
    Untouched state (capacity seed settled) ∨ ∃ text repair records,
      completion.outputJson = some text ∧ RepairReport.modelValidateJson text = .ok repair ∧
        Installed state (capacity seed settled) repair records := by
  cases h with
  | stopped stop h => exact .inl (untouched_of_failure state invocation completion _)
  | faulted reason hn h => exact .inl (untouched_of_failure state invocation completion _)
  | refused exc h hunbound hmissing hrepair =>
      exact .inl (untouched_of_failure state invocation completion _)
  | uncredited text report exc h hreview ho hb hc =>
      rw [hk] at hreview
      cases hreview
  | credited text report updated h hreview ho hb hc =>
      rw [hk] at hreview
      cases hreview
  | repaired text repair records updated h _ ho hp hr =>
      exact .inr ⟨text, repair, records, ho, hp, installed_of_repaired hl hr⟩

end Repairs

/-- Repairs are atomic. A completion of a pending repair, whatever is delivered, either installs
what was delivered, as a whole, or leaves artifact, findings, reports and resolutions as they
were. And the producers of the artifact never change, so that every reviewer of the seed stays
independent of it. -/
theorem repair_atomic [Sha256] [Pydantic] {session : ReviewSession}
    (h : sessions.Reachable session) :
    (∀ invocation, session.state.pending = some invocation → invocation.kind = .repair →
      ∀ receipt output now failureReason session',
      completeInvocation session invocation.invocationId receipt output now failureReason =
        .ok session' →
      Untouched session.state session'.state ∨ ∃ delivery repair records,
        output = some delivery ∧ RepairReport.modelValidateJson delivery.json = .ok repair ∧
          Installed session.state session'.state repair records) ∧
    session.state.artifact.producers = session.seed.initialArtifact.producers ∧
    ∀ reviewer ∈ session.seed.reviewers,
      independent session.seed session.state.artifact reviewer = .ok () := by
  have hs := recorded_of_reachable h
  refine ⟨?_, hs.producers, fun reviewer hr => hs.independent hr⟩
  intro invocation hp hk receipt output now failureReason session' hcall
  obtain ⟨earlier, hl⟩ := hs.last_of_pending hp
  obtain ⟨-, finishedAt, previous, -, hfind, hcall⟩ := completeInvocation_ok.mp hcall
  rw [hs.find_pending hl] at hfind
  cases hfind
  rcases hcall with ⟨done, hdone, -⟩ | ⟨-, state, hstate, rfl⟩
  · cases hdone
  · obtain ⟨pending, settled, hpending, -, houtcome, rfl⟩ := complete_ok hstate
    obtain rfl := Option.some.inj (hp.symm.trans hpending)
    have hledger : Ledger session.seed (earlier ++ [⟨invocation, none⟩]) session.state := by
      rw [← hl]
      exact hs
    rcases repair_outcome hledger hk houtcome with hkept | ⟨text, repair, records, ho, hp', hi⟩
    · exact .inl hkept
    · obtain ⟨delivery, rfl, rfl⟩ := Option.map_eq_some_iff.mp ho
      exact .inr ⟨delivery, repair, records, rfl, hp', hi⟩

open Fixture in
theorem repair_atomic_repaired : ∃ held : ReviewState,
    sessions.Reachable ⟨seed, [rejecting] ++ [⟨repairing.invocation, none⟩], held⟩ ∧
    ∃ delivery repair records, RepairReport.modelValidateJson (Output.json delivery) = .ok repair ∧
      Installed held repaired repair records := by
  have hrepaired : Ledger seed ([rejecting] ++ [repairing]) repaired := ledger_repaired
  obtain ⟨held, hheld, hcomplete⟩ := hrepaired.uncomplete
  have hnone : held.resolutions = [] := by
    obtain ⟨before, hbefore, -, rfl⟩ := hheld.unreserve
    obtain rfl := hbefore.deterministic ledger_rejected
    rfl
  have hreachable := reachable_of_ledger hheld
  have hrecorded : Recorded ⟨seed, [rejecting] ++ [⟨repairing.invocation, none⟩], held⟩ := hheld
  have hcall := completeInvocation_of_complete hrecorded rfl hcomplete
  refine ⟨held, hreachable, ?_⟩
  rcases (repair_atomic hreachable).1 _ hheld.pending_last rfl _ _ _ _ _ hcall with hkept | hi
  · have hsame := hkept.resolutions
    rw [hnone] at hsame
    cases hsame
  · obtain ⟨delivery, repair, records, -, hp, hi⟩ := hi
    exact ⟨delivery, repair, records, hp, hi⟩

end NokincFactory
