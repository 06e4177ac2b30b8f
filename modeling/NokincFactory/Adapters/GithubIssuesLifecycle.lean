/-
  File:      NokincFactory/Adapters/GithubIssuesLifecycle.lean
  Subject:   `github_issues_lifecycle.py`: which labels of an issue are lifecycle evidence.

  * `GitHubLabel`, `casefold`, `canonicalLabelName`: a provider label and its classification;
  * `stateLabel`, `stateOf`: the owned vocabulary, and the state a label stands for;
  * `validateStageNamespace`, `lifecycleLabel`, `lifecycleState`, `requireLifecycleState`,
    `requireMutationLifecycleLabels`: the checks of what the provider returned;
  * `lifecycleStates`: the lifecycle states a set of labels carries, and what each check that
    passes says about them.
-/
import Mathlib.Data.Finset.Sort
import Mathlib.Data.String.Basic
import NokincFactory.Domain.States

namespace NokincFactory

/-! ## 1. Labels -/

/-- A label as the provider returns it. -/
structure GitHubLabel where
  name : String
  nonempty : name ≠ ""
deriving DecidableEq

/-- `str.casefold` of one character. Only the folds into ASCII are here: no other character can
stand in an owned name, nor in the namespace, and it is kept. -/
def foldChar (c : Char) : List Char :=
  if 'A' ≤ c ∧ c ≤ 'Z' then [c.toLower]
  else if c.toNat = 0x17f then ['s']
  else if c.toNat = 0x212a then ['k']
  else if c.toNat = 0xdf ∨ c.toNat = 0x1e9e then ['s', 's']
  else if c.toNat = 0xfb00 then ['f', 'f']
  else if c.toNat = 0xfb01 then ['f', 'i']
  else if c.toNat = 0xfb02 then ['f', 'l']
  else if c.toNat = 0xfb03 then ['f', 'f', 'i']
  else if c.toNat = 0xfb04 then ['f', 'f', 'l']
  else if c.toNat = 0xfb05 ∨ c.toNat = 0xfb06 then ['s', 't']
  else [c]

def casefold (name : String) : String :=
  String.ofList (name.toList.flatMap foldChar)

def canonicalLabelName (label : GitHubLabel) : String :=
  casefold label.name

def isAscii (name : String) : Bool :=
  name.toList.all (fun c => c.toNat < 128)

/-- The owned lifecycle label for a state. -/
def stateLabel (state : WorkItemState) : String :=
  "stage:" ++ String.ofList (state.value.toList.map fun c => if c = '_' then '-' else c.toLower)

/-- `STATE_LABELS.get`. -/
def stateOfLabel (name : String) : Option WorkItemState :=
  WorkItemState.all.find? fun state => stateLabel state = name

/-- `GATE_CONTROL_LABELS`. -/
def gateControlLabels : List String :=
  ["stage:gate-1-approved", "stage:gate-2-approved", "stage:gate-3-approved",
    "stage:gate-4-approved"]

/-- `PERMITTED_STAGE_LABELS`. -/
def permittedStageLabels : List String :=
  WorkItemState.all.map stateLabel ++ gateControlLabels

/-- The lifecycle state a label stands for, when it stands for one. -/
def stateOf (label : GitHubLabel) : Option WorkItemState :=
  stateOfLabel (canonicalLabelName label)

/-! ## 2. The checks -/

/-- What the adapter raises. -/
inductive AdapterError where
  | gitHubApi (message : String)
  | invalidLifecycleLabel (message : String)
  | transition (error : TransitionError)
  | value (message : String)
  | key (name : String)
deriving DecidableEq

/-- The text of the exception. -/
def AdapterError.message : AdapterError → String
  | .gitHubApi message => message
  | .invalidLifecycleLabel message => message
  | .transition (.illegalTransition message) => message
  | .transition (.staleTransition message) => message
  | .value message => message
  | .key name => "'" ++ name ++ "'"

/-- A name in the namespace that is not one of the permitted ones. -/
def unknownStageLabel (label : GitHubLabel) : Bool :=
  "stage:".toList.isPrefixOf (canonicalLabelName label).toList &&
    (!isAscii label.name || canonicalLabelName label ∉ permittedStageLabels)

/-- `", ".join(sorted(names))`. -/
def listed (names : Finset String) : String :=
  ", ".intercalate (names.sort (· ≤ ·))

def validateStageNamespace (labels : List GitHubLabel) : Except AdapterError Unit :=
  let unknownStageLabels := ((labels.filter unknownStageLabel).map (·.name)).toFinset
  guardThat (unknownStageLabels = ∅) (.invalidLifecycleLabel
    ("GitHub issue has unknown stage label(s): " ++ listed unknownStageLabels))

/-- Exactly one authoritative lifecycle label, or fail closed. -/
def lifecycleLabel (labels : List GitHubLabel) : Except AdapterError GitHubLabel := do
  validateStageNamespace labels
  match labels.filter (fun label => (stateOf label).isSome) with
  | [label] => pure label
  | _ => .error (.invalidLifecycleLabel "GitHub issue must have exactly one known lifecycle label")

/-- `lifecycle_state`. -/
def lifecycleState (labels : List GitHubLabel) : Except AdapterError WorkItemState := do
  let label ← lifecycleLabel labels
  match stateOf label with
  | some state => pure state
  -- not for the label that was just found
  | none => .error (.key (canonicalLabelName label))

/-- `require_lifecycle_state`. -/
def requireLifecycleState (labels : List GitHubLabel) (expected : WorkItemState)
    (responseName expectationName : String) : Except AdapterError WorkItemState :=
  match lifecycleState labels with
  | .error _ => .error (.gitHubApi ("GitHub " ++ responseName ++ " has no valid lifecycle state"))
  | .ok actual => do
      guardThat (actual = expected) (.gitHubApi
        ("GitHub " ++ responseName ++ " lifecycle state " ++ actual.value ++
          " does not match " ++ expectationName ++ " " ++ expected.value))
      pure actual

/-- `require_mutation_lifecycle_labels`. -/
def requireMutationLifecycleLabels (response : List GitHubLabel) (expected : Finset String)
    (responseName : String) : Except AdapterError Unit := do
  validateStageNamespace response
  let lifecycleLabels :=
    (response.map canonicalLabelName).filter fun name => (stateOfLabel name).isSome
  let actual := lifecycleLabels.toFinset
  let missing := expected.image casefold \ actual
  guardThat (missing = ∅) (.gitHubApi
    ("GitHub " ++ responseName ++ " is missing target lifecycle label(s): " ++ listed missing))
  guardThat (¬ (lifecycleLabels.length ≠ expected.card ∨ actual ≠ expected))
    (.gitHubApi ("GitHub " ++ responseName ++ " has unexpected lifecycle labels"))

/-! ## 3. What passes -/

/-- The lifecycle states that the labels carry. -/
def lifecycleStates (labels : List GitHubLabel) : List WorkItemState :=
  labels.filterMap stateOf

theorem stateOfLabel_stateLabel (s : WorkItemState) : stateOfLabel (stateLabel s) = some s := by
  cases s <;> decide

theorem stateOfLabel_some {name : String} {s : WorkItemState} :
    stateOfLabel name = some s ↔ name = stateLabel s := by
  constructor
  · intro h
    unfold stateOfLabel at h
    have hname := List.find?_some h
    exact (of_decide_eq_true hname).symm
  · intro h
    rw [h]
    exact stateOfLabel_stateLabel s

theorem stateLabel_injective : Function.Injective stateLabel := by
  intro s s' h
  have hs := stateOfLabel_stateLabel s
  rw [h, stateOfLabel_stateLabel s'] at hs
  exact (Option.some.inj hs).symm

/-- Owned names are their own classification. -/
theorem casefold_stateLabel (s : WorkItemState) : casefold (stateLabel s) = stateLabel s := by
  cases s <;> decide

theorem stateLabel_nonempty (s : WorkItemState) : stateLabel s ≠ "" := by
  cases s <;> decide

/-- The owned label of a state, as it is sent. -/
def ownedLabel (s : WorkItemState) : GitHubLabel := ⟨stateLabel s, stateLabel_nonempty s⟩

theorem stateOf_ownedLabel (s : WorkItemState) : stateOf (ownedLabel s) = some s :=
  (congrArg stateOfLabel (casefold_stateLabel s)).trans (stateOfLabel_stateLabel s)

variable {labels response : List GitHubLabel} {label : GitHubLabel} {s expected : WorkItemState}

/-- The one lifecycle label carries the one lifecycle state. -/
theorem lifecycleLabel_ok (h : lifecycleLabel labels = .ok label) :
    label ∈ labels ∧ ∃ s, stateOf label = some s ∧ lifecycleStates labels = [s] := by
  obtain ⟨-, h⟩ := Except.seq_ok.mp h
  generalize hfound : labels.filter (fun label => (stateOf label).isSome) = found at h
  rcases found with - | ⟨only, - | ⟨second, rest⟩⟩
  · cases h
  · obtain rfl := Except.pure_ok.mp h
    have hmem : only ∈ labels.filter fun label => (stateOf label).isSome := by
      rw [hfound]
      exact List.mem_cons_self
    obtain ⟨hin, hsome⟩ := List.mem_filter.mp hmem
    obtain ⟨s, hs⟩ := Option.isSome_iff_exists.mp hsome
    have hstates : lifecycleStates labels = lifecycleStates [only] := by
      rw [← hfound]
      unfold lifecycleStates
      rw [List.filterMap_filter]
      refine congrArg (List.filterMap · labels) (funext fun label => ?_)
      cases stateOf label <;> rfl
    refine ⟨hin, s, hs, ?_⟩
    rw [hstates]
    simp [lifecycleStates, hs]
  · cases h

theorem lifecycleState_ok (h : lifecycleState labels = .ok s) : lifecycleStates labels = [s] := by
  obtain ⟨label, hlabel, h⟩ := Except.bind_ok.mp h
  obtain ⟨-, s', hs', hstates⟩ := lifecycleLabel_ok hlabel
  rw [hs'] at h
  obtain rfl := Except.pure_ok.mp h
  exact hstates

theorem requireLifecycleState_ok {responseName expectationName : String}
    (h : requireLifecycleState labels expected responseName expectationName = .ok s) :
    s = expected ∧ lifecycleStates labels = [expected] := by
  unfold requireLifecycleState at h
  cases hstate : lifecycleState labels with
  | error e =>
      rw [hstate] at h
      cases h
  | ok actual =>
      rw [hstate] at h
      obtain ⟨hactual, h⟩ := Except.seq_ok.mp h
      obtain rfl := Except.pure_ok.mp h
      obtain rfl := guardThat_ok.mp hactual
      exact ⟨rfl, lifecycleState_ok hstate⟩

/-- The names a mutation response is judged by are the owned names of the states it carries. -/
theorem lifecycleNames_eq (response : List GitHubLabel) :
    (response.map canonicalLabelName).filter (fun name => (stateOfLabel name).isSome) =
      (lifecycleStates response).map stateLabel := by
  induction response with
  | nil => rfl
  | cons label rest ih =>
      cases hs : stateOfLabel (canonicalLabelName label) with
      | none =>
          have hstate : stateOf label = none := hs
          simp [lifecycleStates, hs, hstate]
          exact ih
      | some s =>
          have hstate : stateOf label = some s := hs
          have hname := stateOfLabel_some.mp hs
          simp [lifecycleStates, hs, hstate]
          exact ⟨hname, ih⟩

/-- A mutation response that passes carries the expected states, each once. -/
theorem requireMutationLifecycleLabels_ok {states : Finset WorkItemState} {responseName : String}
    {u : Unit}
    (h : requireMutationLifecycleLabels response (states.image stateLabel) responseName = .ok u) :
    (lifecycleStates response).toFinset = states ∧
      (lifecycleStates response).length = states.card := by
  obtain ⟨-, h⟩ := Except.seq_ok.mp h
  obtain ⟨-, h⟩ := Except.seq_ok.mp h
  have hlabels := guardThat_ok.mp h
  rw [lifecycleNames_eq, List.length_map,
    Finset.card_image_of_injective _ stateLabel_injective] at hlabels
  obtain ⟨hlength, hnames⟩ := not_or.mp hlabels
  have himage : (lifecycleStates response).toFinset.image stateLabel = states.image stateLabel := by
    rw [← not_not.mp hnames]
    ext name
    simp
  exact ⟨Finset.image_injective stateLabel_injective himage, not_not.mp hlength⟩

theorem requireMutationLifecycleLabels_single {responseName : String} {u : Unit}
    (h : requireMutationLifecycleLabels response {stateLabel s} responseName = .ok u) :
    lifecycleStates response = [s] := by
  rw [← Finset.image_singleton] at h
  obtain ⟨hset, hlength⟩ := requireMutationLifecycleLabels_ok h
  obtain ⟨s', hs'⟩ := List.length_eq_one_iff.mp hlength
  rw [hs'] at hset ⊢
  have hmem : s' ∈ ({s} : Finset WorkItemState) := hset ▸ List.mem_toFinset.mpr List.mem_cons_self
  rw [Finset.mem_singleton.mp hmem]

end NokincFactory
