/-
  File:      NokincFactory/Chat/Elicitation.lean
  Subject:   What the Business Analyst returns, against the whole discussion that led to it.

  A discussion is rounds that were refused, and then one that was accepted or none. Each round asks
  with what the round before brought, and its review is shown the draft that it judges.

  The models may answer anything: who let a draft pass is shown, not what it is worth.

  * `Exchange`, `Round`: one call with its telemetry, and the two calls of a round;
  * `Refused`: rounds that were refused, each on the feedback of the one before;
  * `rounds_discussed`: what the loop of both discussions has done when it ends;
  * `business_answers`: the result is the draft that was accepted, or what was left to ask.
-/
import NokincFactory.Chat.Trail

namespace NokincFactory.Elicitation

open Grounding

variable {S : Type} {A : S → Type}

section Discussions

variable [Sha256]

/-! ## 1. Rounds -/

/-- A call with its prompt on the context, its answer, and the telemetry of it. -/
structure Exchange (v : Invocations) (contextDigest : Digest) (prompt : String) (call : ModelCall)
    (reply : ModelResponse) (run : ModelRunTelemetry) : Prop where
  turn : call.turn = turnOf v
  prompt : call.request.prompt.text = prompt
  context : call.request.contextDigest = contextDigest
  answer : call.answer = .ok reply
  recorded : Records call run

/-- The two calls of a round: a draft, after what the round before brought, and its review. -/
def Round {D : Type} (r : DoerReview D) (previous : Option (D × DraftReview)) (draft : D)
    (review : DraftReview) (calls : List ModelCall) (runs : List ModelRunTelemetry) : Prop :=
  ∃ drafting reviewing reply verdict run run', calls = [drafting, reviewing] ∧
    runs = [run, run'] ∧
    Exchange r.doer r.contextDigest (r.draftPrompt previous) drafting reply run ∧
    r.readDraft reply.output = .ok draft ∧
    Exchange r.reviewer r.contextDigest (r.reviewPrompt draft) reviewing verdict run' ∧
    r.readReview verdict.output = .ok review

/-- The review lets the draft pass. -/
def Accepts (review : DraftReview) : Prop := review.supported = true ∧ review.issues = []

/-- So many rounds that were refused, from what there was before the first one to what the last
one brought. -/
inductive Refused {D : Type} (r : DoerReview D) : ℕ → Option (D × DraftReview) →
    List ModelCall → List ModelRunTelemetry → Option (D × DraftReview) → Prop where
  | none (previous : Option (D × DraftReview)) : Refused r 0 previous [] [] previous
  | round (n : ℕ) (previous last : Option (D × DraftReview)) (draft : D) (review : DraftReview)
      (calls calls' : List ModelCall) (runs runs' : List ModelRunTelemetry)
      (h : Round r previous draft review calls runs) (hrefused : ¬ Accepts review)
      (hlater : Refused r n (some (draft, review)) calls' runs' last) :
      Refused r (n + 1) previous (calls ++ calls') (runs ++ runs') last

/-- Rounds that were refused, and then one that was accepted. -/
def AcceptedAfter {D : Type} (r : DoerReview D) (n : ℕ) (previous : Option (D × DraftReview))
    (draft : D) (calls : List ModelCall) (runs : List ModelRunTelemetry) : Prop :=
  ∃ review before calls₀ calls₁ runs₀ runs₁, calls = calls₀ ++ calls₁ ∧ runs = runs₀ ++ runs₁ ∧
    Refused r n previous calls₀ runs₀ before ∧ Round r before draft review calls₁ runs₁ ∧
      Accepts review

/-- What the loop has done when it ends. -/
def Discussed {D : Type} (r : DoerReview D) (left : ℕ) (previous : Option (D × DraftReview))
    (last : RoundsEnd D) (calls : List ModelCall) (runs : List ModelRunTelemetry) : Prop :=
  match last.accepted with
  | none => Refused r left previous calls runs last.previous
  | some draft => ∃ n < left, AcceptedAfter r n previous draft calls runs

section Facts

variable {D : Type} {r : DoerReview D} {previous last : Option (D × DraftReview)} {draft : D}
  {review : DraftReview} {calls : List ModelCall} {runs : List ModelRunTelemetry} {n left : ℕ}

theorem Round.records (h : Round r previous draft review calls runs) :
    List.Forall₂ Records calls runs := by
  obtain ⟨drafting, reviewing, reply, verdict, run, run', rfl, rfl, hdraft, -, hreview, -⟩ := h
  exact .cons hdraft.recorded (.cons hreview.recorded .nil)

theorem Refused.records (h : Refused r n previous calls runs last) :
    List.Forall₂ Records calls runs := by
  induction h with
  | none previous => exact .nil
  | round n previous last draft review calls calls' runs runs' h hrefused hlater ih =>
      exact List.rel_append h.records ih

/-- Where a round was refused, the last one of them brought a draft and its review. -/
theorem Refused.brought (h : Refused r n previous calls runs last) (hn : n ≠ 0) :
    ∃ draft review, last = some (draft, review) ∧ ¬ Accepts review := by
  induction h with
  | none previous => exact absurd rfl hn
  | round n previous last draft review calls calls' runs runs' h hrefused hlater ih =>
      by_cases hzero : n = 0
      · cases hzero
        cases hlater with
        | none _ => exact ⟨draft, review, rfl, hrefused⟩
      · exact ih hzero

theorem AcceptedAfter.records (h : AcceptedAfter r n previous draft calls runs) :
    List.Forall₂ Records calls runs := by
  obtain ⟨review, before, calls₀, calls₁, runs₀, runs₁, rfl, rfl, hrefused, hround, -⟩ := h
  exact List.rel_append hrefused.records hround.records

/-- One more round at the front that was refused. -/
theorem Discussed.later {calls' : List ModelCall} {runs' : List ModelRunTelemetry}
    {value : RoundsEnd D} (hround : Round r previous draft review calls runs)
    (hrefused : ¬ Accepts review)
    (h : Discussed r left (some (draft, review)) value calls' runs') :
    Discussed r (left + 1) previous value (calls ++ calls') (runs ++ runs') := by
  unfold Discussed at h ⊢
  cases haccepted : value.accepted with
  | none =>
      rw [haccepted] at h
      exact .round left previous _ draft review calls calls' runs runs' hround hrefused h
  | some accepted =>
      rw [haccepted] at h
      obtain ⟨n, hn, review', before, calls₀, calls₁, runs₀, runs₁, rfl, rfl, hbefore, hlast,
        haccepts⟩ := h
      refine ⟨n + 1, Nat.succ_lt_succ hn, review', before, calls ++ calls₀, calls₁, runs ++ runs₀,
        runs₁, ?_, ?_, ?_, hlast, haccepts⟩
      · rw [List.append_assoc]
      · rw [List.append_assoc]
      · exact .round n previous before draft review calls calls₀ runs runs₀ hround hrefused hbefore

theorem Discussed.records {value : RoundsEnd D} (h : Discussed r left previous value calls runs) :
    List.Forall₂ Records calls runs := by
  unfold Discussed at h
  cases haccepted : value.accepted with
  | none =>
      rw [haccepted] at h
      exact Refused.records h
  | some accepted =>
      rw [haccepted] at h
      obtain ⟨n, -, hafter⟩ := h
      exact hafter.records

end Facts

/-! ## 2. The loop -/

omit [Sha256] in
/-- Two conditions on how a part ends and on what it asks. -/
theorem asks_and {α : Type} {p : ChatProg A α} {Q Q' : Grounding.Outcome α} (h : Asks p Q)
    (h' : Asks p Q') :
    Asks p fun r calls reads => Q r calls reads ∧ Q' r calls reads := by
  intro asked
  refine ((h asked).and (h' asked)).weaken ?_
  intro r asked' ⟨⟨more, hasked, hQ⟩, more', hasked', hQ'⟩
  obtain rfl : more = more' := List.append_cancel_left (hasked.symm.trans hasked')
  exact ⟨more, hasked, hQ, hQ'⟩

/-- What an invocation that returned has asked. -/
def Exchanged (v : Invocations) (contextDigest : Digest) (prompt : String) :
    Grounding.Outcome (ModelResponse × ModelRunTelemetry) := fun r calls reads =>
  ∀ value, r = .ok value → reads = [] ∧
    ∃ call, calls = [call] ∧ Exchange v contextDigest prompt call value.1 value.2

variable [ChatLibraries]

theorem invoke_exchanged (region : String) (v : Invocations) (prompt : String)
    (contextDigest : Digest) :
    Asks (invoke region v prompt contextDigest : ChatProg A (ModelResponse × ModelRunTelemetry))
      (Exchanged v contextDigest prompt) := by
  have hraised : ∀ e calls reads, Exchanged v contextDigest prompt (.error e) calls reads :=
    fun e calls reads value h => nomatch h
  unfold invoke
  refine asks_checked (hraised _ _ _) fun _ => ?_
  refine asks_computed (fun e => hraised e _ _) fun text htext => ?_
  refine silent_timer.then (fun e => hraised e _ _) fun started => ?_
  refine asks_model.seq (fun e calls reads _ => hraised e _ _) ?_
  intro response calls reads ⟨hcalls, hreads⟩
  rw [hcalls, hreads]
  have hend : ∀ e, Exchanged v contextDigest prompt (.error e)
      ([⟨v.seat, ⟨v.role, text, contextDigest⟩, .ok response⟩] ++ []) ([] ++ []) :=
    fun e => hraised e _ _
  refine silent_timer.then hend fun ended => ?_
  refine asks_checked (hend _) fun hmatches => ?_
  have hreturned : ∀ run : ModelRunTelemetry, run.provider = v.seat.provider →
      run.model = response.model → run.family = response.family →
      run.requestDigest = contentDigest (⟨v.role, text, contextDigest⟩ : ModelRequest) →
      run.responseDigest = textDigest response.output → run.usage = response.usage →
      run.providerExecutionId = response.providerExecutionId →
      Exchanged v contextDigest prompt (.ok (response, run))
        ([⟨v.seat, ⟨v.role, text, contextDigest⟩, .ok response⟩] ++ []) ([] ++ []) := by
    intro run hprovider hmodel hfamily hrequest hresponse husage hid value hvalue
    cases hvalue
    refine ⟨rfl, _, List.append_nil _, rfl, validated_text htext, rfl, rfl, hprovider, ⟨?_, ?_⟩,
      hrequest, response, rfl, hmatches.1, hresponse, husage, hid⟩
    · rw [hmodel]
      exact hmatches.2.1
    · rw [hfamily]
      exact hmatches.2.2.1
  cases husage : response.usage with
  | none => exact asks_pure (hreturned _ rfl rfl rfl rfl rfl husage.symm rfl)
  | some usage =>
      refine silent_now.then hend fun today => ?_
      refine (silent_ofExcept _).then hend fun cost => ?_
      exact asks_pure (hreturned _ rfl rfl rfl rfl rfl husage.symm rfl)

/-- What the loop has done when it returns, with the telemetry that it adds. -/
def LoopEnds {D : Type} (r : DoerReview D) (left : ℕ) (previous : Option (D × DraftReview))
    (modelRuns : List ModelRunTelemetry) : Grounding.Outcome (RoundsEnd D) :=
  fun last calls reads => ∀ value, last = .ok value → reads = [] ∧
    ∃ runs, value.modelRuns = modelRuns ++ runs ∧ Discussed r left previous value calls runs

theorem rounds_discussed {D : Type} (r : DoerReview D) (left : ℕ)
    (previous : Option (D × DraftReview)) (modelRuns : List ModelRunTelemetry) :
    Asks (doerReviewRounds r left previous modelRuns : ChatProg A (RoundsEnd D))
      (LoopEnds r left previous modelRuns) := by
  have hraised : ∀ left previous modelRuns e calls reads,
      LoopEnds r left previous modelRuns (.error e) calls reads :=
    fun left previous modelRuns e calls reads value h => nomatch h
  induction left generalizing previous modelRuns with
  | zero =>
      refine asks_pure fun value hvalue => ?_
      cases hvalue
      exact ⟨rfl, [], (List.append_nil _).symm, .none previous⟩
  | succ left ih =>
      unfold doerReviewRounds
      refine (invoke_exchanged _ _ _ _).seq (fun e _ _ _ => hraised _ _ _ e _ _) ?_
      intro answered calls reads hdraft
      obtain ⟨reply, run⟩ := answered
      obtain ⟨hreads, drafting, hcalls, hdrafting⟩ := hdraft _ rfl
      rw [hreads, hcalls]
      refine asks_computed (fun e => hraised _ _ _ e _ _) fun draft hread => ?_
      refine (invoke_exchanged _ _ _ _).seq (fun e _ _ _ => hraised _ _ _ e _ _) ?_
      intro judged calls' reads' hreview
      obtain ⟨verdict, run'⟩ := judged
      obtain ⟨hreads', reviewing, hcalls', hreviewing⟩ := hreview _ rfl
      rw [hreads', hcalls']
      refine asks_computed (fun e => hraised _ _ _ e _ _) fun review hverdict => ?_
      have hround : Round r previous draft review [drafting, reviewing] [run, run'] :=
        ⟨drafting, reviewing, reply, verdict, run, run', rfl, rfl, hdrafting, hread, hreviewing,
          hverdict⟩
      by_cases haccepts : review.supported = true ∧ review.issues = []
      · rw [if_pos haccepts]
        refine asks_pure fun value hvalue => ?_
        cases hvalue
        exact ⟨rfl, [run, run'], rfl, 0, Nat.succ_pos left, review, previous, [], _, [], _, rfl,
          rfl, .none previous, hround, haccepts⟩
      · rw [if_neg haccepts]
        intro asked
        refine (ih (some (draft, review)) (modelRuns ++ [run, run']) asked).weaken ?_
        intro last asked' hlast
        obtain ⟨more, hasked, hmore⟩ := hlast
        refine ⟨more, hasked, fun value hvalue => ?_⟩
        obtain ⟨hnone, runs, hruns, hdiscussed⟩ := hmore value hvalue
        refine ⟨?_, [run, run'] ++ runs, ?_, ?_⟩
        · rw [hnone]
          rfl
        · rw [hruns, List.append_assoc]
        · show Discussed r (left + 1) previous value ([drafting, reviewing] ++ Grounding.modelCalls
            more) _
          exact Discussed.later hround haccepts hdiscussed

/-! ## 3. The Business Analyst -/

omit [Sha256] [ChatLibraries] in
theorem elicitation_valid : identifierPattern "business_analyst_elicitation".toList = true := by
  decide

omit [Sha256] [ChatLibraries] in
theorem independentReview_valid :
    identifierPattern "business_analyst_independent_review".toList = true := by
  decide

/-- The doer's and the reviewer's turn of the Business Analyst. -/
def analystTurn (d : BusinessAnalystDiscussion) : ModelSeat × Identifier :=
  (d.pair.doer, ⟨"business_analyst_elicitation", elicitation_valid⟩)

def independentTurn (d : BusinessAnalystDiscussion) : ModelSeat × Identifier :=
  (d.pair.reviewer, ⟨"business_analyst_independent_review", independentReview_valid⟩)

/-- What a result has to do with the calls that were made. -/
structure Elicits (r : DoerReview BusinessDraft) (result : BusinessAnalystResult)
    (calls : List ModelCall) : Prop where
  context : result.contextDigest = r.contextDigest
  recorded : List.Forall₂ Records calls result.modelRuns
  concluded : (result.status = .eliciting ∧ ∃ n < maxDoerReviewRounds, ∃ draft,
      AcceptedAfter r n none draft calls result.modelRuns ∧ result.reply = draft.reply ∧
        result.openQuestions = draft.openQuestions) ∨
    (result.status = .needsClarification ∧ ∃ draft review,
      Refused r maxDoerReviewRounds none calls result.modelRuns (some (draft, review)) ∧
        ¬ Accepts review ∧
        result.reply = "I could not verify the assumptions in my draft." ∧
        result.openQuestions = BusinessAnalystDiscussion.questionsLeft review)
  questions : result.openQuestions.length ≤ 3
  /-- whoever is told to clarify is asked something -/
  asked : result.status = .needsClarification → result.openQuestions ≠ []

omit [Sha256] [ChatLibraries] in
theorem questionsLeft_ne_nil (review : DraftReview) :
    BusinessAnalystDiscussion.questionsLeft review ≠ [] := by
  have hasked : ∀ (left : List String) (other : String),
      (if left ≠ [] then left else [other]) ≠ [] := by
    intro left other
    by_cases hleft : left ≠ []
    · rw [if_pos hleft]
      exact hleft
    · rw [if_neg hleft]
      exact List.cons_ne_nil _ _
  exact hasked _ _

omit [Sha256] [ChatLibraries] in
theorem business_validated_questions {value result : BusinessAnalystResult}
    (h : value.validated = .ok result) : value.openQuestions.length ≤ 3 := by
  unfold BusinessAnalystResult.validated at h
  obtain ⟨-, h⟩ := Except.seq_ok.mp h
  obtain ⟨hquestions, -⟩ := Except.seq_ok.mp h
  exact guardThat_ok.mp hquestions

/-- Calls in turns, at most six, and a result that they led to. -/
def Eliciting (d : BusinessAnalystDiscussion) (r : DoerReview BusinessDraft) :
    Grounding.Outcome BusinessAnalystResult := fun result calls reads => reads = [] ∧
  calls.map ModelCall.turn <+: [analystTurn d, independentTurn d, analystTurn d, independentTurn d,
    analystTurn d, independentTurn d] ∧
  ∀ value, result = .ok value → Elicits r value calls

theorem answer_elicits (d : BusinessAnalystDiscussion) (workItemId question : String)
    (repository : Option String) (history : List ConversationTurn) :
    Asks (d.answer workItemId question repository history : ChatProg A BusinessAnalystResult)
      (Eliciting d (d.rounds workItemId question repository history)) := by
  have hstopped : ∀ e, Eliciting d (d.rounds workItemId question repository history) (.error e)
      [] [] := fun e => ⟨rfl, List.nil_prefix, fun _ h => nomatch h⟩
  unfold BusinessAnalystDiscussion.answer checkQuestion
  refine Silent.then ?_ hstopped fun _ => ?_
  · exact (silent_insist _ _).then (fun _ => ⟨rfl, rfl⟩) fun _ => silent_insist _ _
  refine silent_timer.then hstopped fun started => ?_
  refine (asks_and (rounds_asked (d.rounds workItemId question repository history) 3 none [])
    (rounds_discussed _ 3 none [])).seq ?_ ?_
  · intro e calls reads ⟨⟨hreads, hturns, _⟩, _⟩
    exact ⟨hreads, hturns, fun _ h => nomatch h⟩
  intro last calls reads ⟨⟨hreads, hturns, _⟩, hends⟩
  obtain ⟨-, runs, hruns, hdiscussed⟩ := hends last rfl
  rw [List.nil_append] at hruns
  rw [hreads]
  -- nothing is asked of a model or read after the rounds
  have hended : ∀ result : Except Failure BusinessAnalystResult,
      (∀ value, result = .ok value →
        Elicits (d.rounds workItemId question repository history) value calls) →
      Eliciting d (d.rounds workItemId question repository history) result (calls ++ [])
        ([] ++ []) := by
    intro result h
    rw [List.append_nil]
    exact ⟨rfl, hturns, h⟩
  have hraised := fun e : Failure => hended (.error e) fun _ h => nomatch h
  refine silent_timer.then hraised fun ended => ?_
  unfold Discussed at hdiscussed
  rcases last with ⟨_ | draft, previous, modelRuns⟩
  · obtain ⟨draft, review, rfl, hrefused⟩ := Refused.brought hdiscussed (by decide)
    refine silent_uuid.then hraised fun id => asks_ofExcept (hended _ fun value hvalue => ?_)
    have hquestions := business_validated_questions hvalue
    rw [business_validated hvalue]
    cases hruns
    exact ⟨rfl, Refused.records hdiscussed, .inr ⟨rfl, draft, review, hdiscussed, hrefused, rfl,
      rfl⟩, hquestions, fun _ => questionsLeft_ne_nil review⟩
  · obtain ⟨n, hn, hafter⟩ := hdiscussed
    refine silent_uuid.then hraised fun id => asks_ofExcept (hended _ fun value hvalue => ?_)
    have hquestions := business_validated_questions hvalue
    rw [business_validated hvalue]
    cases hruns
    exact ⟨rfl, hafter.records, .inl ⟨rfl, n, hn, draft, hafter, rfl, rfl⟩, hquestions,
      fun h => nomatch h⟩

/-- Whatever the models answer: the Business Analyst reads no repository and makes at most six
calls, its doer and its reviewer in turns. It returns the reply and the questions of a draft only
after a round whose review let this very draft pass, and every round before was refused and its
review given to the next one; else all three rounds were refused, and it asks what the last review
left, at least one question and at most three. Its telemetry has one run for each call, in their
order. -/
theorem business_answers (d : BusinessAnalystDiscussion) (workItemId question : String)
    (repository : Option String) (history : List ConversationTurn) :
    Protocol.transcript.Follows []
      (d.answer workItemId question repository history : ChatProg A BusinessAnalystResult)
      fun r asked => contextsRead asked = [] ∧
        (Grounding.modelCalls asked).map ModelCall.turn <+: [analystTurn d, independentTurn d,
          analystTurn d, independentTurn d, analystTurn d, independentTurn d] ∧
        ∀ result, r = .ok result → Elicits (d.rounds workItemId question repository history) result
          (Grounding.modelCalls asked) := by
  refine (answer_elicits d workItemId question repository history []).weaken ?_
  intro r asked ⟨more, hmore, h⟩
  rw [hmore]
  exact h

end Discussions

end NokincFactory.Elicitation
