/-
  File:      NokincFactory/Adapters/PytestProbe.lean
  Subject:   `pytest_probe.py`: what a recorder makes of the hooks that pytest calls.

  What pytest does itself is not covered: the recorder is shown for any reports, in any order.

  * `PytestEvidenceRecorder`: the recorder and its hooks;
  * `weight`: how bad the reports of one node are, whatever their order;
  * `recorded_weight`: the recorder keeps the worst of a node's reports;
  * `FaithfulEvidence`: what the outcomes of a recorder say of the reports it was given.
-/
import Mathlib.Data.Finset.Basic
import Mathlib.Data.String.Basic
import NokincFactory.Domain.GateEvidence
import NokincFactory.Lib.Dict

namespace NokincFactory

/-! ## 1. The recorder -/

/-- `report.when` -/
inductive TestPhase where
  | setup | call | teardown
deriving DecidableEq

/-- `report.outcome`: what pytest says, or what a plugin puts there (`rerun`). -/
inductive TestOutcome where
  | passed | failed | skipped
  | other (text : String)
deriving DecidableEq

/-- A phase report of a node, with what the recorder reads of `call.excinfo`. -/
structure TestReport where
  nodeid : String
  when : TestPhase
  outcome : TestOutcome
  wasxfail : Option String
  /-- `call.excinfo` is there and is an `AssertionError` -/
  assertion : Bool
deriving DecidableEq

structure PytestEvidenceRecorder where
  outcomes : Dict String (Option CaseOutcome) := ∅
  calls : Finset String := ∅
  collectionErrors : ℕ := 0
  finished : Bool := false

/-- The table `priority` of `pytest_runtest_makereport`. -/
def priority : Option CaseOutcome → ℕ
  | none => 0
  | some .pass => 1
  | some .assertionFailure => 2
  | some .skipped => 3
  | some .error => 4

/-- What one report by itself says of its node. -/
def TestReport.observed (report : TestReport) : Option CaseOutcome :=
  if report.outcome = .skipped ∨ report.wasxfail ≠ none then some .skipped
  else if report.outcome = .failed then
    if report.when = .call ∧ report.assertion = true then some .assertionFailure
    else some .error
  else if report.when = .call ∧ report.outcome = .passed then some .pass
  else none

/-- The worse of two observations. -/
def worse (observed previous : Option CaseOutcome) : Option CaseOutcome :=
  if priority observed > priority previous then observed else previous

namespace PytestEvidenceRecorder

/-- `pytest_collectreport`. -/
def collectreport (self : PytestEvidenceRecorder) (outcome : TestOutcome) :
    PytestEvidenceRecorder :=
  if outcome = .failed ∨ outcome = .skipped then
    { self with collectionErrors := self.collectionErrors + 1 }
  else self

/-- One item of `pytest_collection_finish`. -/
def collect (self : PytestEvidenceRecorder) (nodeid : String) : PytestEvidenceRecorder :=
  { self with
    collectionErrors :=
      if nodeid ∈ self.outcomes then self.collectionErrors + 1 else self.collectionErrors
    outcomes := AList.insert nodeid none self.outcomes }

/-- `pytest_collection_finish`. -/
def collectionFinish (self : PytestEvidenceRecorder) (items : List String) :
    PytestEvidenceRecorder :=
  items.foldl collect self

/-- `pytest_runtest_makereport`. -/
def makereport (self : PytestEvidenceRecorder) (report : TestReport) : PytestEvidenceRecorder :=
  let again := report.when = .call ∧ report.nodeid ∈ self.calls
  let previous :=
    if again then some .error else (AList.lookup report.nodeid self.outcomes).getD none
  { self with
    calls := if report.when = .call then insert report.nodeid self.calls else self.calls
    outcomes := AList.insert report.nodeid (worse report.observed previous) self.outcomes }

/-- `pytest_sessionfinish`. -/
def sessionfinish (self : PytestEvidenceRecorder) : PytestEvidenceRecorder :=
  { self with finished := true }

/-- A case, as it is emitted: a node without an outcome is an error. -/
def caseResult (item : String × Option CaseOutcome) : Except ValueError CaseResult :=
  if h : item.1.toList.any (fun c => !isSpace c) = true ∧ item.1.length ≤ 1000 then
    .ok ⟨⟨item.1, h.1, h.2⟩, item.2.getD .error⟩
  else .error (.message "ValidationError")

/-- `PytestEvidenceRecorder.evidence`. -/
def evidence (self : PytestEvidenceRecorder) (binding : ProbeBinding) (exitCode : ℤ) :
    Except ValueError SuiteRun := do
  let cases ← self.outcomes.sortedItems.mapM caseResult
  if h : (0 ≤ exitCode ∧ exitCode ≤ 255) ∧ self.collectionErrors ≤ 10000 ∧
      cases.length ≤ 10000 ∧ (cases.map (·.caseId)).Nodup then
    pure { binding with
      completed := self.finished, exitCode := exitCode.toNat,
      collectionErrors := self.collectionErrors, cases,
      exitCodeBound := by omega, collectionErrorsBound := h.2.1, casesBound := h.2.2.1,
      caseIds := h.2.2.2 }
  else .error (.message "ValidationError")

/-- The recorder after a collection and the reports that follow it. -/
def observe (collected : List TestOutcome) (items : List String) (reports : List TestReport) :
    PytestEvidenceRecorder :=
  reports.foldl makereport ((collected.foldl collectreport {}).collectionFinish items)

/-- What the recorder emits for a node. -/
def emitted (self : PytestEvidenceRecorder) (nodeid : String) : Option CaseOutcome :=
  (AList.lookup nodeid self.outcomes).map (·.getD .error)

/-! ## 2. What the recorder keeps of a node -/

theorem outcomes_collectreports (collected : List TestOutcome) (self : PytestEvidenceRecorder) :
    (collected.foldl collectreport self).outcomes = self.outcomes ∧
      (collected.foldl collectreport self).calls = self.calls := by
  induction collected generalizing self with
  | nil => exact ⟨rfl, rfl⟩
  | cons outcome collected ih =>
      rw [List.foldl_cons]
      obtain ⟨ho, hc⟩ := ih (self.collectreport outcome)
      rw [ho, hc]
      unfold collectreport
      by_cases h : outcome = .failed ∨ outcome = .skipped
      · simp [h]
      · simp [h]

theorem calls_collectionFinish (items : List String) (self : PytestEvidenceRecorder) :
    (self.collectionFinish items).calls = self.calls := by
  unfold collectionFinish
  induction items generalizing self with
  | nil => rfl
  | cons item items ih =>
      rw [List.foldl_cons, ih]
      rfl

theorem lookup_collectionFinish (items : List String) (self : PytestEvidenceRecorder)
    (nodeid : String) : AList.lookup nodeid (self.collectionFinish items).outcomes =
      if nodeid ∈ items then some none else AList.lookup nodeid self.outcomes := by
  unfold collectionFinish
  induction items generalizing self with
  | nil => simp
  | cons item items ih =>
      rw [List.foldl_cons, ih]
      by_cases hitems : nodeid ∈ items
      · rw [if_pos hitems, if_pos (List.mem_cons_of_mem _ hitems)]
      · rw [if_neg hitems]
        unfold collect
        by_cases hk : nodeid = item
        · subst hk
          rw [if_pos List.mem_cons_self, AList.lookup_insert]
        · have hnot : nodeid ∉ item :: items := fun hm =>
            (List.mem_cons.mp hm).elim hk hitems
          rw [if_neg hnot, AList.lookup_insert_ne hk]

/-- The call reports among some reports. -/
def callReports (own : List TestReport) : List TestReport :=
  own.filter (·.when = .call)

/-- The worst priority among some observations. -/
def worst (own : List TestReport) : ℕ :=
  (own.map fun report => priority report.observed).foldr max 0

/-- How bad the reports of a node are: two calls are an error by themselves. -/
def weight (own : List TestReport) : ℕ :=
  max (worst own) (if 2 ≤ (callReports own).length then 4 else 0)

/-- The reports of one node. -/
def reportsOf (reports : List TestReport) (nodeid : String) : List TestReport :=
  reports.filter (·.nodeid = nodeid)

theorem priority_injective {a b : Option CaseOutcome} (h : priority a = priority b) : a = b := by
  revert h
  cases a with
  | none => cases b with
    | none => exact fun _ => rfl
    | some b => cases b <;> exact fun h => nomatch h
  | some a => cases b with
    | none => cases a <;> exact fun h => nomatch h
    | some b => cases a <;> cases b <;> first | exact fun _ => rfl | exact fun h => nomatch h

theorem priority_le (a : Option CaseOutcome) : priority a ≤ 4 := by
  cases a with
  | none => exact Nat.zero_le _
  | some a => cases a <;> decide

theorem priority_worse (observed previous : Option CaseOutcome) :
    priority (worse observed previous) = max (priority observed) (priority previous) := by
  unfold worse
  by_cases h : priority observed > priority previous
  · rw [if_pos h, max_eq_left (Nat.le_of_lt h)]
  · rw [if_neg h, max_eq_right (Nat.le_of_not_lt h)]

theorem worst_concat (own : List TestReport) (report : TestReport) :
    worst (own ++ [report]) = max (worst own) (priority report.observed) := by
  unfold worst
  induction own with
  | nil => simp
  | cons first own ih =>
      rw [List.cons_append, List.map_cons, List.map_cons, List.foldr_cons, List.foldr_cons, ih,
        max_assoc]

/-- One more report of the node: what the recorder puts in place of the entry. -/
theorem weight_concat (own : List TestReport) (report : TestReport) :
    weight (own ++ [report]) = max (priority report.observed)
      (if report.when = .call ∧ callReports own ≠ [] then 4 else weight own) := by
  have hle := priority_le report.observed
  have hworst : worst own ≤ 4 := by
    unfold worst
    induction own with
    | nil => exact Nat.zero_le _
    | cons first own ih =>
        rw [List.map_cons, List.foldr_cons]
        exact max_le (priority_le _) ih
  have hcalls : (callReports (own ++ [report])).length =
      (callReports own).length + if report.when = .call then 1 else 0 := by
    unfold callReports
    rw [List.filter_append, List.length_append]
    by_cases hcall : report.when = .call
    · simp [hcall]
    · simp [hcall]
  have hsome : callReports own ≠ [] ↔ 0 < (callReports own).length :=
    List.length_pos_iff.symm
  unfold weight
  simp only [worst_concat, hcalls, hsome]
  -- a call that follows a call makes two, and nothing is worse
  by_cases hcall : report.when = .call
  · by_cases hown : 0 < (callReports own).length
    · have htwo : 2 ≤ (callReports own).length + 1 := by omega
      simp only [hcall, hown, htwo, if_true, and_self]
      omega
    · have hone : ¬ 2 ≤ (callReports own).length + 1 := by omega
      have hnone : ¬ 2 ≤ (callReports own).length := by omega
      simp only [hcall, hown, hone, hnone, if_true, if_false, and_false]
      omega
  · simp only [hcall, if_false, Nat.add_zero, false_and]
    omega

/-- What a recorder holds of a node, against the reports the node has received. -/
structure Holds (recorder : PytestEvidenceRecorder) (collected : Prop) (nodeid : String)
    (own : List TestReport) : Prop where
  calls : nodeid ∈ recorder.calls ↔ callReports own ≠ []
  present : (AList.lookup nodeid recorder.outcomes).isSome ↔ collected ∨ own ≠ []
  entry : priority ((AList.lookup nodeid recorder.outcomes).getD none) = weight own

theorem Holds.makereport {self : PytestEvidenceRecorder} {collected : Prop} {nodeid : String}
    {own : List TestReport} (h : Holds self collected nodeid own) (report : TestReport) :
    Holds (self.makereport report) collected nodeid
      (if report.nodeid = nodeid then own ++ [report] else own) := by
  by_cases hk : report.nodeid = nodeid
  · subst hk
    rw [if_pos rfl]
    refine ⟨?_, ?_, ?_⟩
    · have hcalls : callReports (own ++ [report]) ≠ [] ↔
          report.when = .call ∨ callReports own ≠ [] := by
        unfold callReports
        rw [List.filter_append]
        by_cases hcall : report.when = .call
        · simp [hcall]
        · simp [hcall]
      rw [hcalls, ← h.calls]
      show report.nodeid ∈ (if report.when = .call then insert report.nodeid self.calls
        else self.calls) ↔ _
      by_cases hcall : report.when = .call
      · simp [hcall]
      · simp [hcall]
    · show (AList.lookup report.nodeid (AList.insert report.nodeid _ self.outcomes)).isSome ↔ _
      rw [AList.lookup_insert]
      simp
    · show priority ((AList.lookup report.nodeid
        (AList.insert report.nodeid _ self.outcomes)).getD none) = _
      have hcalls : report.when = .call ∧ report.nodeid ∈ self.calls ↔
          report.when = .call ∧ callReports own ≠ [] := and_congr_right fun _ => h.calls
      rw [AList.lookup_insert, Option.getD_some, priority_worse, weight_concat, ← h.entry]
      by_cases hagain : report.when = .call ∧ callReports own ≠ []
      · rw [if_pos (hcalls.mpr hagain), if_pos hagain]
        rfl
      · rw [if_neg fun hc => hagain (hcalls.mp hc), if_neg hagain]
  · rw [if_neg hk]
    have hlook : AList.lookup nodeid (self.makereport report).outcomes =
        AList.lookup nodeid self.outcomes := AList.lookup_insert_ne fun e => hk e.symm
    refine ⟨?_, ?_, ?_⟩
    · rw [← h.calls]
      show nodeid ∈ (if report.when = .call then insert report.nodeid self.calls
        else self.calls) ↔ _
      have hne : nodeid ≠ report.nodeid := fun e => hk e.symm
      by_cases hcall : report.when = .call
      · simp [hcall, hne]
      · simp [hcall]
    · rw [hlook]
      exact h.present
    · rw [hlook]
      exact h.entry

/-- **The recorder keeps the worst of what a node has reported.** -/
theorem recorded_weight (collected : List TestOutcome) (items : List String)
    (reports : List TestReport) (nodeid : String) :
    Holds (observe collected items reports) (nodeid ∈ items) nodeid (reportsOf reports nodeid) := by
  unfold observe
  induction reports using List.reverseRecOn with
  | nil =>
      obtain ⟨houtcomes, hcalls⟩ := outcomes_collectreports collected {}
      rw [List.foldl_nil]
      refine ⟨?_, ?_, ?_⟩
      · rw [calls_collectionFinish, hcalls]
        simp [callReports, reportsOf]
      · rw [lookup_collectionFinish, houtcomes]
        by_cases hitem : nodeid ∈ items
        · simp [hitem]
        · simp [hitem, reportsOf]
      · rw [lookup_collectionFinish, houtcomes]
        by_cases hitem : nodeid ∈ items
        · simp [hitem, priority, weight, worst, callReports, reportsOf]
        · simp [hitem, priority, weight, worst, callReports, reportsOf]
  | append_singleton reports report ih =>
      rw [List.foldl_append, List.foldl_cons, List.foldl_nil]
      have hown : reportsOf (reports ++ [report]) nodeid =
          if report.nodeid = nodeid then reportsOf reports nodeid ++ [report]
          else reportsOf reports nodeid := by
        unfold reportsOf
        rw [List.filter_append]
        by_cases hk : report.nodeid = nodeid
        · simp [hk]
        · simp [hk]
      rw [hown]
      exact ih.makereport report

/-! ## 3. What the emitted outcomes say -/

/-- A report that says nothing against its node. -/
def Unblemished (report : TestReport) : Prop :=
  report.outcome ≠ .failed ∧ report.outcome ≠ .skipped ∧ report.wasxfail = none

/-- A report that says something of its node. -/
def Effective (report : TestReport) : Prop :=
  ¬ Unblemished report ∨ report.when = .call ∧ report.outcome = .passed

/-- The observations, told apart. -/
theorem observed_cases (report : TestReport) :
    (¬ Unblemished report ∧ 2 ≤ priority report.observed) ∨
      (Unblemished report ∧ report.when = .call ∧ report.outcome = .passed ∧
        priority report.observed = 1) ∨
      (Unblemished report ∧ ¬ (report.when = .call ∧ report.outcome = .passed) ∧
        priority report.observed = 0) := by
  unfold TestReport.observed Unblemished
  by_cases hskipped : report.outcome = .skipped ∨ report.wasxfail ≠ none
  · rw [if_pos hskipped]
    refine .inl ⟨fun h => ?_, by decide⟩
    exact hskipped.elim h.2.1 fun hx => hx h.2.2
  · rw [if_neg hskipped]
    obtain ⟨hskip, hxfail⟩ := not_or.mp hskipped
    by_cases hfailed : report.outcome = .failed
    · rw [if_pos hfailed]
      refine .inl ⟨fun h => h.1 hfailed, ?_⟩
      split
      · decide
      · decide
    · rw [if_neg hfailed]
      have hclean : report.outcome ≠ .failed ∧ report.outcome ≠ .skipped ∧
          report.wasxfail = none := ⟨hfailed, hskip, not_not.mp hxfail⟩
      by_cases hpass : report.when = .call ∧ report.outcome = .passed
      · rw [if_pos hpass]
        exact .inr (.inl ⟨hclean, hpass.1, hpass.2, rfl⟩)
      · rw [if_neg hpass]
        exact .inr (.inr ⟨hclean, hpass, rfl⟩)

theorem worst_le {own : List TestReport} {n : ℕ} :
    worst own ≤ n ↔ ∀ report ∈ own, priority report.observed ≤ n := by
  unfold worst
  induction own with
  | nil => simp
  | cons first own ih =>
      rw [List.map_cons, List.foldr_cons, max_le_iff, ih, List.forall_mem_cons]

theorem worst_perm {own own' : List TestReport} (h : own.Perm own') : worst own = worst own' := by
  refine le_antisymm ?_ ?_
  · exact worst_le.mpr fun report hm => worst_le.mp le_rfl report (h.mem_iff.mp hm)
  · exact worst_le.mpr fun report hm => worst_le.mp le_rfl report (h.mem_iff.mpr hm)

theorem weight_perm {own own' : List TestReport} (h : own.Perm own') :
    weight own = weight own' := by
  have hcalls : (callReports own).length = (callReports own').length :=
    (h.filter _).length_eq
  unfold weight
  rw [worst_perm h, hcalls]

/-- A node passes by one call that passed, and nothing against it. -/
theorem weight_pass {own : List TestReport} :
    weight own = 1 ↔ (∃ report, callReports own = [report] ∧ report.outcome = .passed) ∧
      ∀ report ∈ own, Unblemished report := by
  constructor
  · intro h
    have hworst : worst own ≤ 1 := by
      unfold weight at h
      omega
    have hcalls : (callReports own).length < 2 := by
      by_contra htwo
      unfold weight at h
      rw [if_pos (not_lt.mp htwo)] at h
      omega
    have hsome : ¬ worst own ≤ 0 := by
      unfold weight at h
      rw [if_neg (not_le.mpr hcalls)] at h
      omega
    have hclean : ∀ report ∈ own, Unblemished report := by
      intro report hm
      have hle := worst_le.mp hworst report hm
      rcases observed_cases report with ⟨-, hbad⟩ | ⟨hclean, -⟩ | ⟨hclean, -⟩
      · omega
      · exact hclean
      · exact hclean
    refine ⟨?_, hclean⟩
    rw [worst_le] at hsome
    push Not at hsome
    obtain ⟨report, hm, hpos⟩ := hsome
    rcases observed_cases report with ⟨hbad, -⟩ | ⟨-, hcall, hpassed, -⟩ | ⟨-, -, hzero⟩
    · exact absurd (hclean report hm) hbad
    · have hmem : report ∈ callReports own :=
        List.mem_filter.mpr ⟨hm, decide_eq_true hcall⟩
      match hown : callReports own, hcalls, hmem with
      | [only], _, hmem =>
          rw [List.mem_singleton.mp hmem] at hpassed
          exact ⟨only, rfl, hpassed⟩
    · omega
  · intro ⟨⟨report, hcalls, hpassed⟩, hclean⟩
    have hmem : report ∈ callReports own := by
      rw [hcalls]
      exact List.mem_singleton_self _
    obtain ⟨hm, hcall⟩ := List.mem_filter.mp hmem
    have hone : priority report.observed = 1 := by
      rcases observed_cases report with ⟨hbad, -⟩ | ⟨-, -, -, h⟩ | ⟨-, hnot, -⟩
      · exact absurd (hclean report hm) hbad
      · exact h
      · exact absurd ⟨of_decide_eq_true hcall, hpassed⟩ hnot
    have hworst : worst own ≤ 1 := worst_le.mpr fun other ho => by
      rcases observed_cases other with ⟨hbad, -⟩ | ⟨-, -, -, h⟩ | ⟨-, -, h⟩
      · exact absurd (hclean other ho) hbad
      · exact h.le
      · omega
    have hge := worst_le.mp le_rfl report hm
    unfold weight
    rw [hcalls, if_neg (by simp)]
    omega

/-- Two calls leave no other entry than an error. -/
theorem error_of_two {own : List TestReport} (h : 2 ≤ (callReports own).length)
    {entry : Option CaseOutcome} (he : priority entry = weight own) : entry = some .error := by
  have hle := priority_le entry
  unfold weight at he
  rw [if_pos h] at he
  have herror : priority entry = priority (some .error) := by
    show priority entry = 4
    omega
  exact priority_injective herror

theorem emitted_iff {self : PytestEvidenceRecorder} {collected : Prop} {nodeid : String}
    {own : List TestReport} (h : Holds self collected nodeid own) {outcome : CaseOutcome} :
    self.emitted nodeid = some outcome ↔ (collected ∨ own ≠ []) ∧ ∃ entry : Option CaseOutcome,
      priority entry = weight own ∧ entry.getD .error = outcome := by
  unfold emitted
  rw [← h.present, ← h.entry]
  cases AList.lookup nodeid self.outcomes with
  | none => simp
  | some entry =>
      constructor
      · intro he
        exact ⟨rfl, entry, rfl, Option.some.inj he⟩
      · intro ⟨_, entry', hsame, he⟩
        obtain rfl := priority_injective hsame
        exact congrArg some he

theorem caseResult_ok {item : String × Option CaseOutcome} {case : CaseResult} :
    caseResult item = .ok case ↔ case.caseId.text = item.1 ∧ case.outcome = item.2.getD .error := by
  unfold caseResult
  constructor
  · intro h
    split at h
    · obtain rfl := Except.ok.inj h
      exact ⟨rfl, rfl⟩
    · cases h
  · intro ⟨hid, houtcome⟩
    rw [dif_pos ⟨hid ▸ case.caseId.nonblank, hid ▸ case.caseId.short⟩]
    obtain ⟨⟨text, _, _⟩, outcome⟩ := case
    obtain rfl : text = item.1 := hid
    obtain rfl : outcome = item.2.getD .error := houtcome
    rfl

/-- The cases of the evidence are the nodes, with what is emitted for them. -/
theorem mem_cases_of_evidence {self : PytestEvidenceRecorder} {binding : ProbeBinding}
    {exitCode : ℤ} {run : SuiteRun} (h : self.evidence binding exitCode = .ok run)
    {case : CaseResult} :
    case ∈ run.cases ↔ self.emitted case.caseId.text = some case.outcome := by
  unfold evidence at h
  obtain ⟨cases, hcases, h⟩ := Except.bind_ok.mp h
  have hrun : run.cases = cases := by
    split at h
    · obtain rfl := Except.pure_ok.mp h
      rfl
    · cases h
  rw [hrun]
  have heach := List.mapM_ok.mp hcases
  unfold emitted
  constructor
  · intro hm
    obtain ⟨item, hitem, hok⟩ := exists_of_forall₂ heach hm
    obtain ⟨hid, houtcome⟩ := caseResult_ok.mp hok
    rw [hid, Dict.mem_sortedItems.mp hitem, houtcome]
    rfl
  · intro hm
    obtain ⟨entry, hentry, houtcome⟩ := Option.map_eq_some_iff.mp hm
    have hitem := Dict.mem_sortedItems.mpr hentry
    obtain ⟨case', hcase', hok⟩ := exists_of_forall₂ heach.flip hitem
    obtain rfl : case' = case := by
      have hsame : caseResult (case.caseId.text, entry) = .ok case :=
        caseResult_ok.mpr ⟨rfl, houtcome.symm⟩
      exact Except.ok.inj (hok.symm.trans hsame)
    exact hcase'

/-- What the outcomes of a recorder say of the reports it was given. -/
structure FaithfulEvidence (collected : List TestOutcome) (items : List String)
    (reports : List TestReport) : Prop where
  /-- every node of the inventory has an outcome -/
  complete : ∀ nodeid, (observe collected items reports).emitted nodeid ≠ none ↔
    nodeid ∈ items ∨ reportsOf reports nodeid ≠ []
  pass : ∀ nodeid outcome, (observe collected items reports).emitted nodeid = some outcome →
    (outcome = .pass ↔
      (∃ report, callReports (reportsOf reports nodeid) = [report] ∧ report.outcome = .passed) ∧
        ∀ report ∈ reportsOf reports nodeid, Unblemished report)
  again : ∀ nodeid outcome, (observe collected items reports).emitted nodeid = some outcome →
    2 ≤ (callReports (reportsOf reports nodeid)).length → outcome = .error
  silent : ∀ nodeid outcome, (observe collected items reports).emitted nodeid = some outcome →
    (∀ report ∈ reportsOf reports nodeid, ¬ Effective report) → outcome = .error
  /-- neither the order of the reports nor other nodes count -/
  own : ∀ nodeid outcome, (observe collected items reports).emitted nodeid = some outcome →
    ∀ collected' items' reports' outcome',
      (observe collected' items' reports').emitted nodeid = some outcome' →
      (reportsOf reports nodeid).Perm (reportsOf reports' nodeid) → outcome' = outcome
  /-- the evidence lists these outcomes -/
  listed : ∀ finished binding exitCode run,
    { observe collected items reports with finished }.evidence binding exitCode = .ok run →
    (run.cases.map (·.caseId)).Nodup ∧ ∀ case, case ∈ run.cases ↔
      (observe collected items reports).emitted case.caseId.text = some case.outcome

end PytestEvidenceRecorder

open PytestEvidenceRecorder in
/-- A recorder is faithful, whatever pytest collects and reports. -/
theorem recorder_faithful (collected : List TestOutcome) (items : List String)
    (reports : List TestReport) : FaithfulEvidence collected items reports := by
  have hholds := recorded_weight collected items reports
  refine ⟨?_, ?_, ?_, ?_, ?_, ?_⟩
  · intro nodeid
    rw [← (hholds nodeid).present]
    unfold emitted
    cases AList.lookup nodeid (observe collected items reports).outcomes with
    | none => simp
    | some entry => simp
  · intro nodeid outcome hemitted
    obtain ⟨-, entry, hentry, houtcome⟩ := (emitted_iff (hholds nodeid)).mp hemitted
    rw [← weight_pass, ← hentry, ← houtcome]
    constructor
    · intro hpass
      cases entry with
      | none => cases hpass
      | some entry =>
          obtain rfl : entry = .pass := hpass
          rfl
    · intro hone
      obtain rfl : entry = some .pass := priority_injective hone
      rfl
  · intro nodeid outcome hemitted htwo
    obtain ⟨-, entry, hentry, houtcome⟩ := (emitted_iff (hholds nodeid)).mp hemitted
    obtain rfl := error_of_two htwo hentry
    exact houtcome.symm
  · intro nodeid outcome hemitted hsilent
    obtain ⟨-, entry, hentry, houtcome⟩ := (emitted_iff (hholds nodeid)).mp hemitted
    by_cases htwo : 2 ≤ (callReports (reportsOf reports nodeid)).length
    · obtain rfl := error_of_two htwo hentry
      exact houtcome.symm
    · have hworst : worst (reportsOf reports nodeid) ≤ 0 := worst_le.mpr fun report hm => by
        have hquiet := hsilent report hm
        unfold Effective at hquiet
        rcases observed_cases report with ⟨hbad, -⟩ | ⟨-, hcall, hpassed, -⟩ | ⟨-, -, h⟩
        · exact absurd (.inl hbad) hquiet
        · exact absurd (.inr ⟨hcall, hpassed⟩) hquiet
        · exact h.le
      unfold weight at hentry
      rw [if_neg htwo] at hentry
      obtain rfl : entry = none := priority_injective (by show priority entry = 0; omega)
      exact houtcome.symm
  · intro nodeid outcome hemitted collected' items' reports' outcome' hemitted' hperm
    have hholds' := recorded_weight collected' items' reports' nodeid
    obtain ⟨-, entry, hentry, houtcome⟩ := (emitted_iff (hholds nodeid)).mp hemitted
    obtain ⟨-, entry', hentry', houtcome'⟩ := (emitted_iff hholds').mp hemitted'
    obtain rfl : entry' = entry :=
      priority_injective (hentry'.trans ((weight_perm hperm).symm.trans hentry.symm))
    exact houtcome'.symm.trans houtcome
  · intro finished binding exitCode run hrun
    exact ⟨run.caseIds, fun case => mem_cases_of_evidence hrun⟩

end NokincFactory
