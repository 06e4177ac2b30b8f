/-
  File:      NokincFactory/Adapters/GithubIssues.lean
  Subject:   `GitHubIssuesAdapter.apply`: any number of calls on one issue, request by request.

  The provider keeps the labels of the issue and takes one request after the other. A call is
  wherever its last request has left it; between two requests it computes what follows from the
  answer. A request may be answered, may take effect without a usable answer, or may be
  refused, and a call may be gone at any point.

  * `GitHub`, `addLabel`, `removeLabel`: the provider;
  * `prepare`, `checkAddition`, `checkRemoval`, `reread`, `raiseAfterMutationAttempt`: what a
    call computes;
  * `ApplyPhase.perform`, `ApplyPhase.proceed`: the next request of a call, and where its answer
    leaves the call;
  * `applying`: the calls as a system, with the labels after every step in the run.
-/
import NokincFactory.Adapters.GithubIssuesLifecycle
import NokincFactory.Lib.Traces

namespace NokincFactory

/-! ## 1. The provider -/

/-- How the provider tells labels apart, and how the repository spells them. Labels it takes
for one mean one lifecycle state. -/
class GitHub where
  key : String → String
  spelling : GitHubLabel → GitHubLabel
  key_spelling : ∀ label, key (spelling label).name = key label.name
  key_state : ∀ label label', key label.name = key label'.name → stateOf label = stateOf label'

/-- An issue, as far as a lifecycle transition reads it. -/
structure GitHubIssue where
  number : ℕ
  labels : List GitHubLabel

section Provider

variable [GitHub]

/-- The label is among these. -/
def carries (labels : List GitHubLabel) (label : GitHubLabel) : Bool :=
  labels.any fun other => GitHub.key other.name = GitHub.key label.name

/-- Adding a label that is there changes nothing. -/
def addLabel (labels : List GitHubLabel) (label : GitHubLabel) : List GitHubLabel :=
  if carries labels label then labels else labels ++ [GitHub.spelling label]

/-- Deleting a label that is not there is an error. -/
def removeLabel (labels : List GitHubLabel) (label : GitHubLabel) : Option (List GitHubLabel) :=
  if carries labels label then
    some (labels.filter fun other => GitHub.key other.name ≠ GitHub.key label.name)
  else none

end Provider

/-! ## 2. What a call computes -/

/-- The canonical positive decimals, of no more digits than `int` converts. -/
def issueNumberPattern : List Char → Bool
  | [] => false
  | c :: cs => ('1' ≤ c && c ≤ '9') && cs.all (fun d => '0' ≤ d && d ≤ '9') && cs.length < 4300

/-- `_parse_issue_number`. -/
def parseIssueNumber (workItemId : String) : Except AdapterError ℕ := do
  guardThat (issueNumberPattern workItemId.toList = true)
    (.value "GitHub work_item_id must be a canonical positive issue number")
  pure (workItemId.toList.foldl (fun n c => 10 * n + (c.toNat - '0'.toNat)) 0)

/-- `apply` up to its first mutation, with what the issue was read as. -/
def prepare (t : Transition) (issue : GitHubIssue) : Except AdapterError GitHubLabel := do
  let requested ← parseIssueNumber t.workItemId
  guardThat (issue.number = requested) (.gitHubApi
    ("GitHub issue identity mismatch: requested " ++ toString requested ++ ", received " ++
      toString issue.number))
  let current ← lifecycleLabel issue.labels
  let state ← lifecycleState issue.labels
  Except.liftWith .transition (t.validateAgainst state)
  pure current

/-- The check of the response to the addition. -/
def checkAddition (t : Transition) (current : GitHubLabel) (response : List GitHubLabel) :
    Except AdapterError Unit :=
  requireMutationLifecycleLabels response {canonicalLabelName current, stateLabel t.target}
    "label addition response"

/-- The check of the response to the removal. -/
def checkRemoval (t : Transition) (response : List GitHubLabel) : Except AdapterError Unit :=
  requireMutationLifecycleLabels response {stateLabel t.target} "label removal response"

/-- The check of the authoritative reread. -/
def reread (t : Transition) (labels : List GitHubLabel) : Except AdapterError WorkItemState :=
  requireLifecycleState labels t.target "authoritative reread" "requested target"

/-- `_raise_after_mutation_attempt`, with what the issue was read as. -/
def raiseAfterMutationAttempt (t : Transition) (answer : Except AdapterError (List GitHubLabel))
    (mutationError : AdapterError) : AdapterError :=
  match answer >>= reread t with
  | .error _ => .gitHubApi ("GitHub lifecycle mutation failed after authoritative reread: " ++
      mutationError.message ++
      "; authoritative reread could not establish the requested target")
  | .ok _ => .gitHubApi ("GitHub lifecycle mutation failed after authoritative reread: " ++
      mutationError.message)

/-! ## 3. The requests of a call -/

/-- Where a call stands. -/
inductive ApplyPhase where
  | ready
  /-- the issue was read, with this lifecycle label, and the transition validated -/
  | validated (current : GitHubLabel)
  /-- the response to the addition was accepted -/
  | added (current : GitHubLabel)
  /-- the response to the removal was accepted -/
  | removed
  /-- a mutation was attempted and failed -/
  | recovering (error : AdapterError)
  | returned (state : WorkItemState)
  | raised (error : AdapterError)
  | crashed
deriving DecidableEq

/-- What becomes of a request: answered, in effect without an answer that can be used, or
without effect. -/
inductive Delivery where
  | answered
  | lost (message : String)
  | refused (message : String)

/-- What the transport returns of an effect. -/
def Delivery.answer (labels : List GitHubLabel) :
    Delivery → Except AdapterError (List GitHubLabel)
  | .answered => .ok labels
  | .lost message | .refused message => .error (.gitHubApi message)

inductive Request where
  | read | add | remove | reread | recover | crash
deriving DecidableEq

section Requests

variable [GitHub]

/-- The labels after the addition. -/
def Delivery.adds (labels : List GitHubLabel) (label : GitHubLabel) :
    Delivery → List GitHubLabel
  | .answered | .lost _ => addLabel labels label
  | .refused _ => labels

/-- The labels after the removal and what the transport returns: a label that is not there
cannot be removed. -/
def Delivery.removes (labels : List GitHubLabel) (label : GitHubLabel) (delivery : Delivery) :
    List GitHubLabel × Except AdapterError (List GitHubLabel) :=
  match delivery, removeLabel labels label with
  | .answered, some rest => (rest, .ok rest)
  | .lost message, some rest => (rest, .error (.gitHubApi message))
  | .answered, none => (labels, .error (.gitHubApi "GitHub API request failed with status 404"))
  | .lost message, none => (labels, .error (.gitHubApi message))
  | .refused message, _ => (labels, .error (.gitHubApi message))

/-- After the first read. -/
def afterRead (t : Transition) (number : ℕ) (answer : Except AdapterError (List GitHubLabel)) :
    ApplyPhase :=
  match answer >>= fun labels => prepare t ⟨number, labels⟩ with
  | .ok current => .validated current
  | .error e => .raised e

/-- After the addition. -/
def afterAddition (t : Transition) (current : GitHubLabel)
    (answer : Except AdapterError (List GitHubLabel)) : ApplyPhase :=
  match answer >>= checkAddition t current with
  | .ok _ => .added current
  | .error e => .recovering e

/-- After the removal. -/
def afterRemoval (t : Transition) (answer : Except AdapterError (List GitHubLabel)) :
    ApplyPhase :=
  match answer >>= checkRemoval t with
  | .ok _ => .removed
  | .error e => .recovering e

/-- After the last read. -/
def afterReread (t : Transition) (answer : Except AdapterError (List GitHubLabel)) :
    ApplyPhase :=
  match answer >>= reread t with
  | .ok state => .returned state
  | .error e => .raised e

/-- The call has not ended. -/
def ApplyPhase.running : ApplyPhase → Bool
  | .returned _ | .raised _ | .crashed => false
  | _ => true

/-- The next request of a call: which it is, the labels it leaves, and where the answer leaves
the call. -/
def ApplyPhase.perform (t : Transition) (issue : GitHubIssue) (delivery : Delivery) :
    ApplyPhase → Option (Request × List GitHubLabel × ApplyPhase)
  | .ready => some (.read, issue.labels, afterRead t issue.number (delivery.answer issue.labels))
  | .validated current =>
      let labels := delivery.adds issue.labels (ownedLabel t.target)
      some (.add, labels, afterAddition t current (delivery.answer labels))
  | .added current =>
      let (labels, answer) := delivery.removes issue.labels current
      some (.remove, labels, afterRemoval t answer)
  | .removed => some (.reread, issue.labels, afterReread t (delivery.answer issue.labels))
  | .recovering error =>
      some (.recover, issue.labels,
        .raised (raiseAfterMutationAttempt t (delivery.answer issue.labels) error))
  | .returned _ | .raised _ | .crashed => none

/-- A call performs its next request, or is gone before it. -/
def ApplyPhase.proceed (t : Transition) (issue : GitHubIssue) (phase : ApplyPhase) :
    Option Delivery → Option (Request × List GitHubLabel × ApplyPhase)
  | some delivery => phase.perform t issue delivery
  | none => if phase.running then some (.crash, issue.labels, .crashed) else none

/-! ## 4. The system -/

variable {ι : Type} [DecidableEq ι]

/-- The issue, and where each call stands. -/
structure IssueWorld (ι : Type) where
  issue : GitHubIssue
  phase : ι → ApplyPhase

/-- A request that was made, and the labels it left. -/
structure ApplyEvent (ι : Type) where
  caller : ι
  request : Request
  labels : List GitHubLabel
deriving DecidableEq

/-- The call of `i` makes its next request. -/
def IssueWorld.advance (config : ι → Transition) (w : IssueWorld ι) (i : ι)
    (delivery : Option Delivery) : Option (ApplyEvent ι × IssueWorld ι) :=
  ((w.phase i).proceed (config i) w.issue delivery).map fun (request, labels, phase) =>
    (⟨i, request, labels⟩,
      ⟨{ w.issue with labels := labels }, Function.update w.phase i phase⟩)

/-- The calls on one issue, from these labels on. -/
def applying (config : ι → Transition) (number : ℕ) (initial : List GitHubLabel) :
    Labelled (ApplyEvent ι) (IssueWorld ι) where
  start w := w = ⟨⟨number, initial⟩, fun _ => .ready⟩
  step w e w' := ∃ delivery, w.advance config e.caller delivery = some (e, w')

/-- The labels of the issue after the run. -/
def carried (initial : List GitHubLabel) (run : List (ApplyEvent ι)) : List GitHubLabel :=
  (run.getLast?.map (·.labels)).getD initial

end Requests

end NokincFactory
