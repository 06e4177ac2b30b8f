/-
  File:      NokincFactory/Chat/Grounding.lean
  Subject:   What a repository discussion returns, against what it asked and was answered.

  The stage of a discussion is here all that it asked, with the answers. A part of it is shown to
  add to this only so much: a read of a context, or one call of a model.

  Models and readers may answer anything. A cited line was read; that it says what the answer makes
  of it is not covered.

  * `modelCalls`, `contextsRead`: the calls and the reads of a transcript;
  * `scopeCitation_ok`: what a scoped citation stands for;
  * `invoke_asked`, `rounds_asked`: one call, and the calls of the rounds;
  * `grounded_answers`: the result is the draft that was accepted last, and its citations stand.
-/
import NokincFactory.Application.GroundedSchemas

namespace NokincFactory.Grounding

variable {S : Type} {A : S → Type}

/-! ## 1. Transcripts -/

/-- What was asked, with the answers. -/
abbrev Asked (A : S → Type) : Type := List (Σ request : ChatAsk S, ChatAsk.Answer A request)

/-- A call of a model port. -/
structure ModelCall where
  seat : ModelSeat
  request : ModelRequest
  answer : Except Failure ModelResponse

def modelCalls (asked : Asked A) : List ModelCall :=
  asked.filterMap fun entry =>
    match entry with
    | ⟨.complete seat request, answer⟩ => some ⟨seat, request, answer⟩
    | _ => none

/-- The contexts that the reader gave, each with the repository it was asked for. -/
def contextsRead (asked : Asked A) : List (String × RepositoryCodeContext) :=
  asked.filterMap fun entry =>
    match entry with
    | ⟨.readCodebaseContext repository _, answer⟩ =>
      (answer.toOption).map fun context => (repository, context)
    | _ => none

theorem modelCalls_append (asked more : Asked A) :
    modelCalls (asked ++ more) = modelCalls asked ++ modelCalls more := List.filterMap_append

theorem contextsRead_append (asked more : Asked A) :
    contextsRead (asked ++ more) = contextsRead asked ++ contextsRead more := List.filterMap_append

section

variable {α β : Type}

/-- A condition on how a part ends, on its calls and on its reads. -/
abbrev Outcome (α : Type) : Type :=
  Except Failure α → List ModelCall → List (String × RepositoryCodeContext) → Prop

/-- Whatever was asked before, a program ends so with what it asks itself. -/
def Asks (p : ChatProg A α) (Q : Outcome α) : Prop :=
  ∀ asked, Protocol.transcript.Follows asked p fun r asked' =>
    ∃ more, asked' = asked ++ more ∧ Q r (modelCalls more) (contextsRead more)

variable {Q : Outcome α}

/-- A sequence asks what its halves ask. -/
theorem Asks.seq {p : ChatProg A α} {f : α → ChatProg A β} {M : Outcome α} {Q : Outcome β}
    (hp : Asks p M)
    (he : ∀ error calls reads, M (.error error) calls reads → Q (.error error) calls reads)
    (hf : ∀ value calls reads, M (.ok value) calls reads →
      Asks (f value) fun r calls' reads' => Q r (calls ++ calls') (reads ++ reads')) :
    Asks (p >>= f) Q := by
  intro asked
  refine Protocol.Follows.seq (hp asked) ?_ ?_
  · intro error asked' ⟨more, hasked, hM⟩
    exact ⟨more, hasked, he error _ _ hM⟩
  · intro value asked' ⟨first, hasked, hM⟩
    rw [hasked]
    refine (hf value _ _ hM (asked ++ first)).weaken fun r asked'' h => ?_
    obtain ⟨more, hmore, hQ⟩ := h
    refine ⟨first ++ more, ?_, ?_⟩
    · rw [hmore, List.append_assoc]
    · rw [modelCalls_append, contextsRead_append]
      exact hQ

/-- A part that calls no model and reads nothing. -/
def Silent (p : ChatProg A α) : Prop := Asks p fun _ calls reads => calls = [] ∧ reads = []

theorem Silent.then {p : ChatProg A α} {f : α → ChatProg A β} {Q : Outcome β} (hp : Silent p)
    (he : ∀ error, Q (.error error) [] []) (hf : ∀ value, Asks (f value) Q) :
    Asks (p >>= f) Q := by
  refine Asks.seq hp ?_ ?_
  · intro error calls reads ⟨hcalls, hreads⟩
    rw [hcalls, hreads]
    exact he error
  · intro value calls reads ⟨hcalls, hreads⟩
    rw [hcalls, hreads]
    exact hf value

theorem asks_ofExcept {r : Except Failure α} (h : Q r [] []) :
    Asks (.ofExcept r : ChatProg A α) Q := fun asked =>
  Protocol.follows_ofExcept.mpr ⟨[], (List.append_nil asked).symm, h⟩

theorem asks_pure {value : α} (h : Q (.ok value) [] []) : Asks (pure value : ChatProg A α) Q :=
  asks_ofExcept (r := .ok value) h

theorem asks_raise {error : Failure} (h : Q (.error error) [] []) :
    Asks (.raise error : ChatProg A α) Q := asks_ofExcept (r := .error error) h

/-- What was computed, and what comes after it. -/
theorem asks_computed {r : Except Failure α} {f : α → ChatProg A β} {Q : Outcome β}
    (he : ∀ error, Q (.error error) [] []) (hf : ∀ value, r = .ok value → Asks (f value) Q) :
    Asks (.ofExcept r >>= f) Q := by
  cases r with
  | error error => exact asks_raise (he error)
  | ok value => exact hf value rfl

theorem silent_ofExcept (r : Except Failure α) : Silent (.ofExcept r : ChatProg A α) :=
  asks_ofExcept ⟨rfl, rfl⟩

theorem silent_insist (p : Prop) [Decidable p] (error : Failure) :
    Silent (.insist p error : ChatProg A Unit) := by
  rw [Prog.insist]
  by_cases hp : p
  · rw [if_pos hp]
    exact asks_pure ⟨rfl, rfl⟩
  · rw [if_neg hp]
    exact asks_raise ⟨rfl, rfl⟩

/-- What was checked, and what comes after it. -/
theorem asks_checked {p : Prop} [Decidable p] {error : Failure} {f : Unit → ChatProg A β}
    {Q : Outcome β} (he : Q (.error error) [] []) (hf : p → Asks (f ()) Q) :
    Asks (.insist p error >>= f) Q := by
  rw [Prog.insist]
  by_cases hp : p
  · rw [if_pos hp]
    exact hf hp
  · rw [if_neg hp]
    exact asks_raise he

theorem silent_timer : Silent (askTimer : ChatProg A ℚ) :=
  fun _ => ⟨trivial, fun _ => ⟨_, rfl, rfl, rfl⟩⟩

theorem silent_now : Silent (askNow : ChatProg A Datetime) :=
  fun _ => ⟨trivial, fun _ => ⟨_, rfl, rfl, rfl⟩⟩

theorem silent_uuid : Silent (askUuid : ChatProg A Uuid) :=
  fun _ => ⟨trivial, fun _ => ⟨_, rfl, rfl, rfl⟩⟩

theorem asks_model {seat : ModelSeat} {request : ModelRequest} :
    Asks (askModel seat request : ChatProg A ModelResponse) fun r calls reads =>
      calls = [⟨seat, request, r⟩] ∧ reads = [] :=
  fun _ => ⟨trivial, fun _ => Protocol.follows_ofExcept.mpr ⟨_, rfl, rfl, rfl⟩⟩

theorem asks_reader {repository question : String} :
    Asks (askReader repository question : ChatProg A RepositoryCodeContext) fun r calls reads =>
      calls = [] ∧ ∀ context, r = .ok context → reads = [(repository, context)] := by
  refine fun asked => ⟨trivial, fun answer => Protocol.follows_ofExcept.mpr ⟨_, rfl, rfl, ?_⟩⟩
  intro context hcontext
  rw [hcontext]
  rfl

end

/-! ## 2. Citations -/

/-- The text of the lines that a citation names. -/
def citedLines (text : String) (citation : SourceCitation) : List Char :=
  joinLines (((splitLines [] text.toList).take citation.lineEnd).drop (citation.lineStart - 1))

/-- The citation names one of the contexts and a file in it, and quotes from the lines it names. -/
def Stands (contexts : List RepositoryCodeContext) (citation : SourceCitation) : Prop :=
  (1 ≤ citation.lineStart ∧ citation.lineStart ≤ citation.lineEnd) ∧
    ∃ context ∈ contexts, citation.repository = some context.repository ∧
      ∃ source ∈ context.files, source.path = citation.path ∧
        citation.lineEnd ≤ (splitLines [] source.text.toList).length ∧
        citation.quote.toList <:+: citedLines source.text citation

/-- A claim that stands on citations. -/
def Grounded (contexts : List RepositoryCodeContext) (claim : GroundedClaim) : Prop :=
  claim.citations ≠ [] ∧ ∀ citation ∈ claim.citations, Stands contexts citation

theorem lastWhere_some {α : Type} {p : α → Bool} {values : List α} {value : α}
    (h : lastWhere p values = some value) : value ∈ values ∧ p value = true := by
  have hmem := List.mem_of_find?_eq_some h
  exact ⟨List.mem_reverse.mp hmem, List.find?_some h⟩

theorem scopeCitation_ok {contexts : List RepositoryCodeContext} {citation placed : SourceCitation}
    (hvalid : citation.Valid) (h : scopeCitation contexts citation = .ok placed) :
    Stands contexts placed := by
  unfold scopeCitation at h
  extract_lets place at h
  -- the repository that the citation names, or the only one there is
  have hplace : ∃ repository, place repository = .ok placed := by
    split at h
    · exact ⟨_, h⟩
    · exact ⟨_, h⟩
    · cases h
  obtain ⟨repository, h⟩ := hplace
  simp only [place] at h
  cases hcontext : lastWhere (fun c => c.repository = repository) contexts with
  | none =>
    rw [hcontext] at h
    cases h
  | some context =>
    rw [hcontext] at h
    obtain ⟨-, h⟩ := Except.seq_ok.mp h
    cases hsource : lastWhere (fun s => s.path = citation.path) context.files with
    | none =>
      rw [hsource] at h
      cases h
    | some source =>
      rw [hsource] at h
      obtain ⟨hlines, h⟩ := Except.seq_ok.mp h
      obtain ⟨hquote, h⟩ := Except.seq_ok.mp h
      cases h
      obtain ⟨hcontextMem, hname⟩ := lastWhere_some hcontext
      obtain ⟨hsourceMem, hpath⟩ := lastWhere_some hsource
      refine ⟨hvalid.ordered, context, hcontextMem, ?_, source, hsourceMem, of_decide_eq_true hpath,
        guardThat_ok.mp hlines, guardThat_ok.mp hquote⟩
      exact congrArg some (of_decide_eq_true hname).symm

/-- The claims of a draft, scoped. -/
theorem scope_ok {contexts : List RepositoryCodeContext} {draft : DraftAnswer}
    {claims : List GroundedClaim} (hvalid : draft.Valid)
    (h : validateAndScopeCitations draft contexts = .ok claims) :
    claims.length = draft.claims.length ∧ ∀ claim ∈ claims, Grounded contexts claim := by
  have hclaims := List.mapM_ok.mp h
  refine ⟨hclaims.length_eq.symm, fun claim hmem => ?_⟩
  obtain ⟨drafted, hdrafted, hscope⟩ := exists_of_forall₂ hclaims hmem
  obtain ⟨citations, hcitations, hscope⟩ := Except.bind_ok.mp hscope
  cases hscope
  have hscoped := List.mapM_ok.mp hcitations
  have hclaim := hvalid.claims drafted hdrafted
  refine ⟨fun hnil => hclaim.cited ?_, fun citation hcitation => ?_⟩
  · rw [show citations = [] from hnil] at hscoped
    exact List.forall₂_nil_right_iff.mp hscoped
  · obtain ⟨given, hgiven, hok⟩ := exists_of_forall₂ hscoped hcitation
    exact scopeCitation_ok (hclaim.citations given hgiven) hok

/-! ## 3. Calls -/

/-- Whose turn a call is: the model that is asked, and the role it is asked in. -/
def ModelCall.turn (call : ModelCall) : ModelSeat × Identifier := (call.seat, call.request.role)

def turnOf (v : Invocations) : ModelSeat × Identifier := (v.seat, v.role)

/-- The turns of the rounds that are left, one of the doer and one of the reviewer in each. -/
def turns {D : Type} (r : DoerReview D) : ℕ → List (ModelSeat × Identifier)
  | 0 => []
  | left + 1 => turnOf r.doer :: turnOf r.reviewer :: turns r left

/-- Two calls of one round: a reply that is the draft, and its review without an issue. -/
structure AcceptingRound {D : Type} (r : DoerReview D) (draft : D)
    (drafting reviewing : ModelCall) : Prop where
  doer : drafting.turn = turnOf r.doer
  reviewer : reviewing.turn = turnOf r.reviewer
  drafted : ∃ reply, drafting.answer = .ok reply ∧ r.readDraft reply.output = .ok draft
  shown : reviewing.request.prompt.text = r.reviewPrompt draft
  accepted : ∃ reply review, reviewing.answer = .ok reply ∧ r.readReview reply.output = .ok review ∧
    review.supported = true ∧ review.issues = []

/-- The last two of the calls made the draft and accepted it. -/
def Accepted {D : Type} (r : DoerReview D) (draft : D) (calls : List ModelCall) : Prop :=
  ∃ earlier drafting reviewing, calls = earlier ++ [drafting, reviewing] ∧
    AcceptingRound r draft drafting reviewing

theorem Accepted.later {D : Type} {r : DoerReview D} {draft : D} {calls : List ModelCall}
    (earlier : List ModelCall) (h : Accepted r draft calls) :
    Accepted r draft (earlier ++ calls) := by
  obtain ⟨between, drafting, reviewing, hcalls, hround⟩ := h
  exact ⟨earlier ++ between, drafting, reviewing, by rw [hcalls, List.append_assoc], hround⟩

section Calls

variable [Sha256] [ChatLibraries]

/-- One call with its prompt, or none where something fails before it. -/
def Invoked (v : Invocations) (prompt : String) : Outcome (ModelResponse × ModelRunTelemetry) :=
  fun r calls reads => reads = [] ∧
    ((calls = [] ∧ ∀ value, r ≠ .ok value) ∨ ∃ call : ModelCall, calls = [call] ∧
      call.turn = turnOf v ∧ call.request.prompt.text = prompt ∧
        ∀ value, r = .ok value → call.answer = .ok value.1)

omit [Sha256] [ChatLibraries] in
theorem Invoked.turns {v : Invocations} {prompt : String}
    {r : Except Failure (ModelResponse × ModelRunTelemetry)} {calls : List ModelCall}
    {reads : List (String × RepositoryCodeContext)} (h : Invoked v prompt r calls reads) :
    reads = [] ∧ calls.map ModelCall.turn <+: [turnOf v] := by
  obtain ⟨hreads, hcalls⟩ := h
  refine ⟨hreads, ?_⟩
  rcases hcalls with ⟨hcalls, -⟩ | ⟨call, hcalls, hturn, -⟩
  · rw [hcalls]
    exact List.nil_prefix
  · rw [hcalls, List.map_singleton, hturn]

omit [Sha256] [ChatLibraries] in
theorem Invoked.returned {v : Invocations} {prompt : String}
    {value : ModelResponse × ModelRunTelemetry} {calls : List ModelCall}
    {reads : List (String × RepositoryCodeContext)} (h : Invoked v prompt (.ok value) calls reads) :
    reads = [] ∧ ∃ call : ModelCall, calls = [call] ∧ call.turn = turnOf v ∧
      call.request.prompt.text = prompt ∧ call.answer = .ok value.1 := by
  obtain ⟨hreads, ⟨-, hnone⟩ | ⟨call, hcalls, hturn, hprompt, hreply⟩⟩ := h
  · exact absurd rfl (hnone value)
  · exact ⟨hreads, call, hcalls, hturn, hprompt, hreply value rfl⟩

omit [Sha256] [ChatLibraries] in
theorem validated_text {s : String} {text : Text} (h : Text.validated s = .ok text) :
    text.text = s := by
  unfold Text.validated at h
  split at h
  · cases h
    rfl
  · cases h

theorem invoke_asked (region : String) (v : Invocations) (prompt : String)
    (contextDigest : Digest) :
    Asks (invoke region v prompt contextDigest : ChatProg A (ModelResponse × ModelRunTelemetry))
      (Invoked v prompt) := by
  have hraised : ∀ error, Invoked v prompt (.error error) [] [] := fun error =>
    ⟨rfl, .inl ⟨rfl, fun _ h => (nomatch h)⟩⟩
  unfold invoke
  refine (silent_insist _ _).then hraised fun _ => ?_
  refine asks_computed hraised fun text htext => ?_
  refine silent_timer.then hraised fun started => ?_
  refine asks_model.seq ?_ ?_
  · intro error calls reads ⟨hcalls, hreads⟩
    exact ⟨hreads, .inr ⟨_, hcalls, rfl, validated_text htext, fun _ h => (nomatch h)⟩⟩
  intro response calls reads ⟨hcalls, hreads⟩
  rw [hcalls, hreads]
  -- what comes after the call asks no model, and returns its response or raises
  have hraised' : ∀ error, Invoked v prompt (.error error)
      [⟨v.seat, ⟨v.role, text, contextDigest⟩, .ok response⟩] [] := fun error =>
    ⟨rfl, .inr ⟨_, rfl, rfl, validated_text htext, fun _ h => (nomatch h)⟩⟩
  have hreturned : ∀ telemetry, Invoked v prompt (.ok (response, telemetry))
      [⟨v.seat, ⟨v.role, text, contextDigest⟩, .ok response⟩] [] := by
    intro telemetry
    refine ⟨rfl, .inr ⟨_, rfl, rfl, validated_text htext, fun value h => ?_⟩⟩
    cases h
    rfl
  refine silent_timer.then hraised' fun ended => ?_
  refine (silent_insist _ _).then hraised' fun _ => ?_
  cases response.usage with
  | none => exact asks_pure (hreturned _)
  | some usage =>
    refine silent_now.then hraised' fun today => ?_
    exact (silent_ofExcept _).then hraised' fun cost => asks_pure (hreturned _)

/-- The calls of the rounds take turns, and where a draft was accepted, the last two did it. -/
def Rounds {D : Type} (r : DoerReview D) (left : ℕ) : Outcome (RoundsEnd D) :=
  fun last calls reads => reads = [] ∧ calls.map ModelCall.turn <+: turns r left ∧
    ∀ value draft, last = .ok value → value.accepted = some draft → Accepted r draft calls

theorem rounds_asked {D : Type} (r : DoerReview D) (left : ℕ)
    (previous : Option (D × DraftReview)) (modelRuns : List ModelRunTelemetry) :
    Asks (doerReviewRounds r left previous modelRuns : ChatProg A (RoundsEnd D))
      (Rounds r left) := by
  induction left generalizing previous modelRuns with
  | zero =>
    refine asks_pure ⟨rfl, List.nil_prefix, fun value draft hvalue hdraft => ?_⟩
    cases hvalue
    cases hdraft
  | succ left ih =>
    unfold doerReviewRounds
    -- a round that stops early has taken one turn or two
    have hstopped : ∀ (error : Failure) (calls : List ModelCall),
        calls.map ModelCall.turn <+: [turnOf r.doer, turnOf r.reviewer] →
          Rounds r (left + 1) (.error error) calls [] :=
      fun error calls hturns => ⟨rfl, hturns.trans ⟨_, rfl⟩, fun _ _ h => (nomatch h)⟩
    refine (invoke_asked _ _ _ _).seq ?_ ?_
    · intro error calls reads h
      rw [h.turns.1]
      exact hstopped error calls (h.turns.2.trans ⟨_, rfl⟩)
    intro ⟨drafted, draftRun⟩ calls reads h
    obtain ⟨hreads, drafting, hcalls, hdoer, -, hreply⟩ := h.returned
    rw [hreads, hcalls]
    refine asks_computed (fun error => hstopped error [drafting] ?_) fun draft hdraft => ?_
    · rw [List.map_singleton, hdoer]
      exact ⟨_, rfl⟩
    refine (invoke_asked _ _ _ _).seq ?_ ?_
    · intro error calls' reads' h'
      rw [h'.turns.1]
      refine hstopped error ([drafting] ++ calls') ?_
      rw [List.map_append, List.map_singleton, hdoer]
      exact (List.prefix_append_right_inj [turnOf r.doer]).mpr h'.turns.2
    intro ⟨verdict, reviewRun⟩ calls' reads' h'
    obtain ⟨hreads', reviewing, hcalls', hreviewer, hshown, hverdict⟩ := h'.returned
    rw [hreads', hcalls']
    have hturns : [drafting, reviewing].map ModelCall.turn =
        [turnOf r.doer, turnOf r.reviewer] := by
      rw [List.map_cons, List.map_singleton, hdoer, hreviewer]
    refine asks_computed (fun error => hstopped error [drafting, reviewing] ?_)
      fun review hreview => ?_
    · rw [hturns]
    by_cases haccepted : review.supported = true ∧ review.issues = []
    · rw [if_pos haccepted]
      refine asks_pure ⟨rfl, ?_, fun value accepted hvalue haccept => ?_⟩
      · rw [List.append_nil]
        show [drafting, reviewing].map ModelCall.turn <+: _
        rw [hturns]
        exact ⟨_, rfl⟩
      · cases hvalue
        cases haccept
        exact ⟨[], drafting, reviewing, rfl, hdoer, hreviewer, ⟨drafted, hreply, hdraft⟩, hshown,
          verdict, review, hverdict, hreview, haccepted.1, haccepted.2⟩
    · rw [if_neg haccepted]
      refine fun asked => (ih _ _ asked).weaken ?_
      intro last asked' ⟨more, hasked, hreadsMore, hmore, hlast⟩
      refine ⟨more, hasked, hreadsMore, ?_, fun value draft' hvalue haccept => ?_⟩
      · show ([drafting, reviewing] ++ modelCalls more).map ModelCall.turn <+: _
        rw [List.map_append, hturns]
        exact (List.prefix_append_right_inj [turnOf r.doer, turnOf r.reviewer]).mpr hmore
      · exact (hlast value draft' hvalue haccept).later [drafting, reviewing]

omit [Sha256] [ChatLibraries] in
theorem readContexts_asked (question : String) (selected : List String) :
    Asks (GroundedRepositoryDiscussion.readContexts question selected :
        ChatProg A (List RepositoryCodeContext)) fun r calls reads => calls = [] ∧
      ∀ contexts, r = .ok contexts → reads.map Prod.fst = selected ∧
        reads.map Prod.snd = contexts := by
  induction selected with
  | nil =>
    refine asks_pure ⟨rfl, fun contexts h => ?_⟩
    cases h
    exact ⟨rfl, rfl⟩
  | cons repository rest ih =>
    unfold GroundedRepositoryDiscussion.readContexts
    refine asks_reader.seq (fun error calls reads h => ⟨h.1, fun _ h' => (nomatch h')⟩) ?_
    intro context calls reads ⟨hcalls, hreads⟩
    rw [hcalls, hreads context rfl]
    refine ih.seq (fun error calls reads h => ⟨h.1, fun _ h' => (nomatch h')⟩) ?_
    intro contexts calls' reads' ⟨hcalls', hreads'⟩
    obtain ⟨hnames, hvalues⟩ := hreads' contexts rfl
    refine asks_pure ⟨?_, fun value h => ?_⟩
    · rw [hcalls']
      rfl
    · cases h
      rw [List.append_nil, List.map_append, List.map_append, hnames, hvalues]
      exact ⟨rfl, rfl⟩

end Calls

/-! ## 4. Answers -/

section Answers

variable [Sha256]

/-- What a result has to do with the calls and with the reads. -/
structure Answers [ChatLibraries] (d : GroundedRepositoryDiscussion) (repository : Option String)
    (repositories : List String) (question : String) (history : List ConversationTurn)
    (result : GroundedDiscussionResult) (calls : List ModelCall)
    (reads : List (String × RepositoryCodeContext)) : Prop where
  selected : selectedRepositories repository repositories = .ok result.repositories
  read : reads.map Prod.fst = result.repositories
  named : ∀ entry ∈ reads, entry.2.repository = entry.1
  grounded : ∀ claim ∈ result.claims, Grounded (reads.map Prod.snd) claim
  /-- one draft, which the last call accepted -/
  accepted : result.claims ≠ [] → ∃ draft : DraftAnswer,
    Accepted (d.rounds result.repositories question history (reads.map Prod.snd)) draft calls ∧
      result.summary = draft.summary ∧ result.claims = draft.claims ∧
        result.openQuestions = draft.openQuestions
  answered : result.status = .answered → result.claims ≠ []

omit [Sha256] in
theorem validated_same {value result : GroundedDiscussionResult}
    (h : value.validated = .ok result) : result = value := by
  unfold GroundedDiscussionResult.validated at h
  obtain ⟨-, h⟩ := Except.seq_ok.mp h
  obtain ⟨-, h⟩ := Except.seq_ok.mp h
  obtain ⟨-, h⟩ := Except.seq_ok.mp h
  obtain ⟨-, h⟩ := Except.seq_ok.mp h
  obtain ⟨-, h⟩ := Except.seq_ok.mp h
  obtain ⟨-, h⟩ := Except.seq_ok.mp h
  obtain ⟨-, h⟩ := Except.seq_ok.mp h
  exact (Except.pure_ok.mp h).symm

omit [Sha256] in
/-- Each context is of the repository that it was asked for. -/
theorem reads_named {reads : List (String × RepositoryCodeContext)}
    (h : (reads.map Prod.snd).map (·.repository) = reads.map Prod.fst) :
    ∀ entry ∈ reads, entry.2.repository = entry.1 := by
  rw [List.map_map] at h
  exact List.map_inj_left.mp h

omit [Sha256] in
theorem architectRole_valid : identifierPattern "grounded_architect_discussion".toList = true := by
  decide

omit [Sha256] in
theorem reviewRole_valid : identifierPattern "independent_evidence_review".toList = true := by
  decide

/-- The doer's and the reviewer's turn of a repository discussion. -/
def architectTurn (d : GroundedRepositoryDiscussion) : ModelSeat × Identifier :=
  (d.pair.doer, ⟨"grounded_architect_discussion", architectRole_valid⟩)

def reviewTurn (d : GroundedRepositoryDiscussion) : ModelSeat × Identifier :=
  (d.pair.reviewer, ⟨"independent_evidence_review", reviewRole_valid⟩)

section Parsed

variable (levels : ℕ) (call : PyStr → ℕ) (libraries : ChatLibraries)
  (d : GroundedRepositoryDiscussion)
  (selected : List String) (question : String) (history : List ConversationTurn)
  (contexts : List RepositoryCodeContext)

/-- A draft that was read is grounded, and has a claim or a question. -/
theorem readDraft_grounded {output : String} {draft : DraftAnswer}
    (h : (@GroundedRepositoryDiscussion.rounds _ (groundedSchemas levels call libraries) d selected
      question history contexts).readDraft output = .ok draft) :
    (∀ claim ∈ draft.claims, Grounded contexts claim) ∧
      (draft.claims ≠ [] ∨ draft.openQuestions ≠ []) := by
  unfold GroundedRepositoryDiscussion.rounds at h
  dsimp only at h
  split at h
  case h_1 parsed hparsed =>
    obtain ⟨claims, hclaims, h⟩ := Except.bind_ok.mp h
    cases h
    have hvalid := parsed_valid hparsed
    obtain ⟨hlength, hgrounded⟩ := scope_ok hvalid hclaims
    refine ⟨hgrounded, hvalid.content.imp (fun hsome hnone => hsome ?_) id⟩
    rw [show claims = [] from hnone] at hlength
    exact List.length_eq_zero_iff.mp hlength.symm
  case h_2 => cases h

end Parsed

/-- Calls in turns, at most six, and a result that answers. -/
def Answering [ChatLibraries] (d : GroundedRepositoryDiscussion) (repository : Option String)
    (repositories : List String) (question : String) (history : List ConversationTurn) :
    Outcome GroundedDiscussionResult := fun r calls reads =>
  calls.map ModelCall.turn <+: [architectTurn d, reviewTurn d, architectTurn d, reviewTurn d,
    architectTurn d, reviewTurn d] ∧
  ∀ result, r = .ok result → Answers d repository repositories question history result calls reads

theorem answer_asked (levels : ℕ) (call : PyStr → ℕ) (libraries : ChatLibraries)
    (d : GroundedRepositoryDiscussion) (repository : Option String) (repositories : List String)
    (question : String) (history : List ConversationTurn) :
    let _ : ChatLibraries := groundedSchemas levels call libraries
    Asks (d.answer repository repositories question history : ChatProg A GroundedDiscussionResult)
      (Answering d repository repositories question history) := by
  intro _
  -- the part before the rounds asks no model, and what stops there has no result
  have hstopped : ∀ (error : Failure) (reads : List (String × RepositoryCodeContext)),
      Answering d repository repositories question history (.error error) [] reads :=
    fun error reads => ⟨List.nil_prefix, fun _ h => (nomatch h)⟩
  unfold GroundedRepositoryDiscussion.answer checkQuestion
  refine Silent.then ?_ (fun error => hstopped error []) fun _ => ?_
  · exact (silent_insist _ _).then (fun _ => ⟨rfl, rfl⟩) fun _ => silent_insist _ _
  refine asks_computed (fun error => hstopped error []) fun selected hselected => ?_
  refine silent_timer.then (fun error => hstopped error []) fun started => ?_
  refine (readContexts_asked question selected).seq (fun error calls reads h => ?_) ?_
  · rw [h.1]
    exact hstopped error reads
  intro contexts calls reads ⟨hcalls, hreads⟩
  obtain ⟨hread, hcontexts⟩ := hreads contexts rfl
  rw [hcalls]
  refine asks_checked (hstopped _ (reads ++ [])) fun hnamed => ?_
  refine asks_checked (hstopped _ (reads ++ [])) fun _ => ?_
  refine (rounds_asked (d.rounds selected question history contexts) 3 none []).seq ?_ ?_
  · intro error calls' reads' ⟨_, hturns, _⟩
    exact ⟨hturns, fun _ h => (nomatch h)⟩
  intro ⟨accepted, previous, modelRuns⟩ calls' reads' ⟨hreads', hturns, haccepted⟩
  rw [hreads']
  -- nothing is asked of a model or read after the rounds
  have hended : ∀ r : Except Failure GroundedDiscussionResult,
      (∀ result, r = .ok result →
        Answers d repository repositories question history result calls' reads) →
      Answering d repository repositories question history r
        ([] ++ (calls' ++ [])) (reads ++ ([] ++ [])) := by
    intro r h
    rw [List.append_nil, List.append_nil, List.append_nil]
    exact ⟨hturns, h⟩
  have hraised := fun error : Failure => hended (.error error) fun _ h => (nomatch h)
  have hbuilt : ∀ value : GroundedDiscussionResult,
      Answers d repository repositories question history value calls' reads → _ :=
    fun value h => hended value.validated fun result hresult => validated_same hresult ▸ h
  refine silent_timer.then hraised fun ended => ?_
  have hnames := reads_named (hcontexts ▸ hread ▸ hnamed)
  rcases selected.head? with _ | name
  · exact asks_raise (hraised _)
  rcases contexts.head? with _ | context
  · exact asks_raise (hraised _)
  rcases accepted with _ | draft
  · rcases previous with _ | ⟨draft, review⟩
    · exact asks_raise (hraised _)
    · refine silent_uuid.then hraised fun id => asks_ofExcept (hbuilt _ ?_)
      exact ⟨hselected, hread, hnames, fun _ h => (nomatch h), fun h => absurd rfl h,
        fun h => (nomatch h)⟩
  · have hdraft := haccepted _ draft rfl rfl
    obtain ⟨earlier, drafting, reviewing, hlast, hround⟩ := hdraft
    obtain ⟨reply, -, hreply⟩ := hround.drafted
    obtain ⟨hgrounded, hcontent⟩ :=
      readDraft_grounded levels call libraries d selected question history contexts hreply
    refine silent_uuid.then hraised fun id => asks_ofExcept (hbuilt _ ?_)
    refine ⟨hselected, hread, hnames, ?_, fun _ => ⟨draft, ?_, rfl, rfl, rfl⟩, fun h => ?_⟩
    · rw [hcontexts]
      exact hgrounded
    · rw [hcontexts]
      exact ⟨earlier, drafting, reviewing, hlast, hround⟩
    · refine hcontent.resolve_right fun hquestions => ?_
      rw [show _ = TurnStatus.needsClarification from if_pos hquestions] at h
      cases h

/-- Whatever the models and the reader answer: a discussion makes at most six calls, in turns, and
a result is grounded in what was read, with claims only from the draft that the last call
accepted. -/
theorem grounded_answers (levels : ℕ) (call : PyStr → ℕ) (libraries : ChatLibraries)
    (d : GroundedRepositoryDiscussion) (repository : Option String) (repositories : List String)
    (question : String) (history : List ConversationTurn) :
    let _ : ChatLibraries := groundedSchemas levels call libraries
    Protocol.transcript.Follows []
      (d.answer repository repositories question history : ChatProg A GroundedDiscussionResult)
      fun r asked =>
        (modelCalls asked).map ModelCall.turn <+: [architectTurn d, reviewTurn d, architectTurn d,
          reviewTurn d, architectTurn d, reviewTurn d] ∧
        ∀ result, r = .ok result → Answers d repository repositories question history result
          (modelCalls asked) (contextsRead asked) := by
  intro _
  refine Protocol.Follows.weaken
    (answer_asked levels call libraries d repository repositories question history []) ?_
  intro r asked ⟨more, hmore, h⟩
  rw [hmore]
  exact h

end Answers

end NokincFactory.Grounding
