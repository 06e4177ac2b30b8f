/-
  File:      NokincFactory/Application/GroundedSchemas.lean
  Subject:   `_parse_model_json` of a repository discussion, and the classes of its replies.

  A reply is JSON without a key twice, and an instance of its class: no other field, each in its
  bounds, and what the validators ask for.

  * `SourceCitation.modelValidate`, `GroundedClaim.modelValidate`, `DraftAnswer.modelValidate`,
    `DraftReview.modelValidate`;
  * `groundedSchemas`: libraries that parse the replies so;
  * `DraftAnswer.Valid`, `draft_valid`: what a parsed draft has.
-/
import NokincFactory.Application.Discussion
import NokincFactory.Domain.JsonScanner
import NokincFactory.Domain.PyStrings

namespace NokincFactory

/-! ## 1. Fields -/

/-- `extra="forbid"`. -/
def onlyKeys (members : List (PyStr × Loaded)) (keys : List String) : Bool :=
  members.all fun m => m.1 ∈ keys.map pyStr

/-- A `str`. A surrogate, which is no `Char`, becomes a null character. -/
def textField : Loaded → Option String
  | .str s => some (String.ofList (s.map fun c => Char.ofNat c.val))
  | _ => none

/-- `Field(min_length=lower, max_length=upper)` of a `str`: pydantic measures only what has an
encoding. -/
def boundedText (lower upper : ℕ) : Loaded → Option String
  | .str s => do
    guard (encodable s ∧ lower ≤ s.length ∧ s.length ≤ upper)
    textField (.str s)
  | _ => none

/-- The same of a `str | None`, with `None` for its default. -/
def optionalField (lower upper : ℕ) : Option Loaded → Option (Option String)
  | none | some .none => some none
  | some value => (boundedText lower upper value).map some

/-- `Field(strict=True, ge=1)` of an `int`. -/
def positiveField : Loaded → Option ℕ
  | .int n => if 1 ≤ n then some n.toNat else none
  | _ => none

/-- A `list` of at most so many items, each of which is validated. -/
def listField {α : Type} (lower upper : ℕ) (item : Loaded → Option α) : Loaded → Option (List α)
  | .list items =>
    if lower ≤ items.length ∧ items.length ≤ upper then items.mapM item else none
  | _ => none

/-! ## 2. Classes -/

def SourceCitation.modelValidate : Loaded → Option SourceCitation
  | .dict members => do
    guard (onlyKeys members
      ["repository", "default_branch", "path", "line_start", "line_end", "quote"])
    let repository ← optionalField 3 200 (Loaded.get members "repository")
    let defaultBranch ← optionalField 1 255 (Loaded.get members "default_branch")
    let path ← (Loaded.get members "path").bind (boundedText 1 1024)
    let lineStart ← (Loaded.get members "line_start").bind positiveField
    let lineEnd ← (Loaded.get members "line_end").bind positiveField
    let quote ← (Loaded.get members "quote").bind (boundedText 1 1000)
    -- `_ordered_line_range`
    guard (lineStart ≤ lineEnd ∧ lineEnd - lineStart ≤ 20)
    pure ⟨repository, defaultBranch, path, lineStart, lineEnd, quote⟩
  | _ => none

def GroundedClaim.modelValidate : Loaded → Option GroundedClaim
  | .dict members => do
    guard (onlyKeys members ["statement", "citations"])
    let statement ← (Loaded.get members "statement").bind (boundedText 1 2000)
    let citations ← (Loaded.get members "citations").bind
      (listField 1 6 SourceCitation.modelValidate)
    pure ⟨statement, citations⟩
  | _ => none

def DraftAnswer.modelValidate : Loaded → Option DraftAnswer
  | .dict members => do
    guard (onlyKeys members ["summary", "claims", "open_questions"])
    let summary ← (Loaded.get members "summary").bind (boundedText 1 5000)
    let claims ← (Loaded.get members "claims").bind (listField 0 20 GroundedClaim.modelValidate)
    let openQuestions ← (Loaded.get members "open_questions").bind (listField 0 8 textField)
    -- `_has_claim_or_question`
    guard (claims ≠ [] ∨ openQuestions ≠ [])
    pure ⟨summary, claims, openQuestions⟩
  | _ => none

/-- `_IndependentReview`. -/
def DraftReview.modelValidate : Loaded → Option DraftReview
  | .dict members => do
    guard (onlyKeys members ["supported", "issues", "open_questions"])
    let supported ← match Loaded.get members "supported" with
      | some (.bool supported) => some supported
      | _ => none
    let issues ← (Loaded.get members "issues").bind (listField 0 12 textField)
    let openQuestions ← (Loaded.get members "open_questions").bind (listField 0 8 textField)
    pure ⟨supported, issues, openQuestions⟩
  | _ => none

/-- `_parse_model_json`, with the levels of the stack that the scanner has left, and those that are
called for between two brackets. A reply that is nested deeper raises another error than one of
another shape; neither gives a value. -/
def parseModelJson {α : Type} (levels : ℕ) (call : PyStr → ℕ) (modelValidate : Loaded → Option α)
    (output : String) : Option α :=
  match loadsText ⟨uniqueObject, call⟩ levels (pyStr output) with
  | .ok payload => modelValidate payload
  | .error _ => none

/-- Libraries that parse the replies of a repository discussion so. -/
@[reducible] def groundedSchemas (levels : ℕ) (call : PyStr → ℕ) (libraries : ChatLibraries) :
    ChatLibraries :=
  { libraries with
    draftAnswer := parseModelJson levels call DraftAnswer.modelValidate
    independentReview := parseModelJson levels call DraftReview.modelValidate }

/-! ## 3. What a parsed draft has -/

structure SourceCitation.Valid (c : SourceCitation) : Prop where
  ordered : 1 ≤ c.lineStart ∧ c.lineStart ≤ c.lineEnd
  bounded : c.lineEnd - c.lineStart ≤ 20

structure GroundedClaim.Valid (c : GroundedClaim) : Prop where
  cited : c.citations ≠ []
  citations : ∀ citation ∈ c.citations, citation.Valid

structure DraftAnswer.Valid (d : DraftAnswer) : Prop where
  claims : ∀ claim ∈ d.claims, claim.Valid
  content : d.claims ≠ [] ∨ d.openQuestions ≠ []

theorem positive_ok {v : Loaded} {n : ℕ} (h : positiveField v = some n) : 1 ≤ n := by
  cases v with
  | int m =>
    rw [positiveField] at h
    by_cases hm : 1 ≤ m
    · rw [if_pos hm] at h
      cases h
      omega
    · rw [if_neg hm] at h
      cases h
  | _ => cases h

/-- A list that is validated item by item. -/
theorem mapM_valid {α : Type} {item : Loaded → Option α} : ∀ {items : List Loaded}
    {values : List α}, items.mapM item = some values →
      values.length = items.length ∧ ∀ value ∈ values, ∃ v, item v = some value
  | [], values, h => by
      cases h
      exact ⟨rfl, fun _ hmem => (nomatch hmem)⟩
  | v :: items, values, h => by
      rw [List.mapM_cons] at h
      obtain ⟨first, hfirst, h⟩ := Option.bind_eq_some_iff.mp h
      obtain ⟨rest, hrest, h⟩ := Option.bind_eq_some_iff.mp h
      obtain rfl := Option.some.inj h
      obtain ⟨hlength, hall⟩ := mapM_valid hrest
      refine ⟨by simp [hlength], fun value hmem => ?_⟩
      rcases List.mem_cons.mp hmem with rfl | hmem
      · exact ⟨v, hfirst⟩
      · exact hall value hmem

theorem listField_ok {α : Type} {lower upper : ℕ} {item : Loaded → Option α} {v : Loaded}
    {values : List α} (h : listField lower upper item v = some values) :
    lower ≤ values.length ∧ ∀ value ∈ values, ∃ v, item v = some value := by
  cases v with
  | list items =>
    rw [listField] at h
    by_cases hbounds : lower ≤ items.length ∧ items.length ≤ upper
    · rw [if_pos hbounds] at h
      obtain ⟨hlength, hall⟩ := mapM_valid h
      exact ⟨hlength ▸ hbounds.1, hall⟩
    · rw [if_neg hbounds] at h
      cases h
  | _ => cases h

theorem citation_valid {v : Loaded} {c : SourceCitation}
    (h : SourceCitation.modelValidate v = some c) : c.Valid := by
  cases v with
  | dict members =>
    simp only [SourceCitation.modelValidate, Option.bind_eq_bind, Option.bind_eq_some_iff,
      Option.guard_eq_some', Option.pure_def, Option.some.injEq] at h
    obtain ⟨-, -, repository, -, branch, -, path, -, first, ⟨v, -, hfirst⟩, last, -, quote, -, -,
      hrange, rfl⟩ := h
    exact ⟨⟨positive_ok hfirst, hrange.1⟩, hrange.2⟩
  | _ => cases h

theorem claim_valid {v : Loaded} {c : GroundedClaim} (h : GroundedClaim.modelValidate v = some c) :
    c.Valid := by
  cases v with
  | dict members =>
    simp only [GroundedClaim.modelValidate, Option.bind_eq_bind, Option.bind_eq_some_iff,
      Option.guard_eq_some', Option.pure_def, Option.some.injEq] at h
    obtain ⟨-, -, statement, -, citations, ⟨v, -, hlist⟩, rfl⟩ := h
    obtain ⟨hlength, hall⟩ := listField_ok hlist
    refine ⟨List.length_pos_iff.mp hlength, fun citation hmem => ?_⟩
    obtain ⟨v, hv⟩ := hall citation hmem
    exact citation_valid hv
  | _ => cases h

theorem draft_valid {v : Loaded} {d : DraftAnswer} (h : DraftAnswer.modelValidate v = some d) :
    d.Valid := by
  cases v with
  | dict members =>
    simp only [DraftAnswer.modelValidate, Option.bind_eq_bind, Option.bind_eq_some_iff,
      Option.guard_eq_some', Option.pure_def, Option.some.injEq] at h
    obtain ⟨-, -, summary, -, claims, ⟨v, -, hlist⟩, questions, -, -, hcontent, rfl⟩ := h
    refine ⟨fun claim hmem => ?_, hcontent⟩
    obtain ⟨v, hv⟩ := (listField_ok hlist).2 claim hmem
    exact claim_valid hv
  | _ => cases h

theorem parsed_valid {levels : ℕ} {call : PyStr → ℕ} {output : String} {d : DraftAnswer}
    (h : parseModelJson levels call DraftAnswer.modelValidate output = some d) : d.Valid := by
  rw [parseModelJson] at h
  split at h
  · exact draft_valid h
  · cases h

end NokincFactory
