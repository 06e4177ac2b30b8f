/-
  File:      NokincFactory/Adapters/MaestroReports.lean
  Subject:   `maestro_reports.py`: a JUnit report as test evidence.

  The XML parser is a parameter: whatever tree it gives is checked. The totals are kept under the
  places of their elements, as the code keeps them under the elements themselves.

  * `ReportSummary`, `ReportError`: what comes of a report;
  * `traverse`, `validatedStructure`: the elements, by the stack of `_validated_structure`;
  * `Counter`, `countElement`, `validateCounts`: the totals, children first;
  * `parseReport`: `parse_report`.
-/
import NokincFactory.Domain.PyStrings
import NokincFactory.Lib.Bytes
import NokincFactory.Lib.Dict
import NokincFactory.Lib.ElementTree

namespace NokincFactory

namespace Maestro

open Element (Located)

def maxReportBytes : ℕ := 2000000

def maxReportElements : ℕ := 10000

def maxReportDepth : ℕ := 32

/-- `_CHILDREN`. -/
def childTags : List (String × List String) :=
  [("testsuites", ["testsuite", "testsuites", "properties", "system-out", "system-err"]),
    ("testsuite", ["testsuite", "testcase", "properties", "system-out", "system-err"]),
    ("testcase", ["properties", "system-out", "system-err", "failure", "error", "skipped"]),
    ("properties", ["property"]), ("property", []), ("system-out", []), ("system-err", []),
    ("failure", []), ("error", []), ("skipped", [])]

/-- An `InvalidMaestroReport`, or the `KeyError` of a tag that is not known. -/
inductive ReportError where
  | invalid (message : String)
  | key (tag : String)
deriving DecidableEq

structure ReportSummary where
  tests : ℕ
  failed : ℕ
  skipped : ℕ
deriving DecidableEq

def ReportSummary.passed (summary : ReportSummary) : Bool :=
  0 < summary.tests && summary.failed = 0 && summary.skipped = 0

/-! ## 1. The structure -/

def suiteTags : List String := ["testsuites", "testsuite"]

/-- The loop over the children of an element. -/
def checkChildren (e : Element) : Except ReportError Unit :=
  e.children.forM fun child =>
    match childTags.lookup e.tag with
    | none => .error (.key e.tag)
    | some tags =>
      guardThat (child.tag ∈ tags) (.invalid "unsupported report element structure")

/-- The loop over the stack, whose top comes first. What is left of the limit on elements bounds
the loop too. -/
def traverse : ℕ → List (Located × ℕ) → Except ReportError (List Located)
  | _, [] => .ok []
  | 0, _ :: _ => .error (.invalid "report exceeds supported structure limits")
  | room + 1, (l, depth) :: pending => do
    guardThat (depth ≤ maxReportDepth) (.invalid "report exceeds supported structure limits")
    checkChildren l.element
    let elements ← traverse room ((l.children.map fun child => (child, depth + 1)).reverse ++ pending)
    pure (l :: elements)

/-- `_validated_structure`. -/
def validatedStructure (root : Element) : Except ReportError (List Located) :=
  traverse maxReportElements [(⟨[], root⟩, 0)]

/-! ## 2. The counts -/

inductive Counter where
  | tests | failures | errors | skipped | disabled
deriving DecidableEq

namespace Counter

def key : Counter → String
  | tests => "tests"
  | failures => "failures"
  | errors => "errors"
  | skipped => "skipped"
  | disabled => "disabled"

/-- `keys`. -/
def all : List Counter := [tests, failures, errors, skipped, disabled]

end Counter

abbrev Totals : Type := Counter → ℕ

abbrev Counts : Type := Dict (List ℕ) Totals

/-- What a test case counts for. -/
def caseCounts (e : Element) : Totals
  | .tests => 1
  | .failures => (e.find "failure").isSome.toNat
  | .errors => (e.find "error").isSome.toNat
  | .skipped => (e.find "skipped").isSome.toNat
  | .disabled => 0

/-- The sums over the children that have counts. -/
def suiteCounts (counts : Counts) (l : Located) : Totals := fun counter =>
  ((l.children.filterMap fun child => AList.lookup child.path counts).map fun child =>
    child counter).sum

/-- `len(value) <= 7 and value.isascii() and value.isdecimal() and int(value) == actual`. -/
def countStated (value : String) (actual : ℕ) : Prop :=
  value.toList.length ≤ 7 ∧ value.toList.all Char.isDigit ∧ value.toList ≠ [] ∧
    Nat.ofDigitChars 10 value.toList 0 = actual

instance (value : String) (actual : ℕ) : Decidable (countStated value actual) :=
  inferInstanceAs (Decidable (_ ∧ _ ∧ _ ∧ _))

/-- The loop over the keys of a suite. -/
def checkStated (e : Element) (totals : Totals) : Except ReportError Unit :=
  Counter.all.forM fun counter =>
    match e.get counter.key with
    | none => .ok ()
    | some value =>
      guardThat (countStated value (totals counter)) (.invalid "inconsistent JUnit counters")

/-- One round of `_validate_counts`. -/
def countElement (counts : Counts) (l : Located) : Except ReportError Counts :=
  if l.element.tag = "testcase" then .ok (AList.insert l.path (caseCounts l.element) counts)
  else if l.element.tag ∈ suiteTags then do
    let totals := suiteCounts counts l
    checkStated l.element totals
    pure (AList.insert l.path totals counts)
  else .ok counts

/-- `_validate_counts`. -/
def validateCounts (elements : List Located) : Except ReportError Unit := do
  let _ ← elements.reverse.foldlM countElement ∅

/-! ## 3. The report -/

/-- `xml.etree.ElementTree`. -/
class ElementTree where
  fromstring : PyStr → Option Element

/-- `bytes.decode("utf-8-sig")`. -/
def decodeUtf8Sig (content : List Byte) : Option PyStr :=
  (decodeUtf8 (if [0xef, 0xbb, 0xbf] <+: content then content.drop 3 else content)).filter
    fun text => encodable text

/-- A character in upper case. Of the characters that are not ASCII, only a dotless `i` and a `y`
with a ring give a letter in the place where one is looked for. -/
def upperChar (c : CodePoint) : PyStr :=
  if h : 97 ≤ c.val ∧ c.val ≤ 122 then [⟨c.val - 32, by omega⟩]
  else if c.val = 0x131 then [73]
  else if c.val = 0x1e99 then [89, 0x30a]
  else [c]

/-- `declaration in text.upper()`. -/
def declares (text : PyStr) (declaration : String) : Prop :=
  pyStr declaration <:+: text.flatMap upperChar

instance (text : PyStr) (declaration : String) : Decidable (declares text declaration) :=
  inferInstanceAs (Decidable (_ <:+: _))

/-- The states of a failed test case. -/
def failedStates : List String := ["FAILED", "FAILURE", "ERROR"]

def failedCase (e : Element) : Bool := (e.find "failure").isSome || (e.find "error").isSome

/-- The loop over the test cases. -/
def checkStatus (e : Element) : Except ReportError Unit := do
  guardThat ((e.get "status").getD "SUCCESS" ∈ "SUCCESS" :: failedStates)
    (.invalid "unknown or skipped testcase status")
  guardThat (¬ (((e.get "status").any fun status => status ∈ failedStates) ∧ ¬ failedCase e))
    (.invalid "inconsistent testcase failure status")

/-- The inventory is exact: no case is missing, more than expected, or there twice. -/
def inventoryMatches (names expected : List String) : Prop :=
  expected ≠ [] ∧ expected.dedup.length = expected.length ∧ names.length = expected.length ∧
    ((∀ name ∈ names, name ∈ expected) ∧ ∀ name ∈ expected, name ∈ names) ∧
    names.dedup.length = names.length

instance (names expected : List String) : Decidable (inventoryMatches names expected) :=
  inferInstanceAs (Decidable (_ ∧ _ ∧ _ ∧ _ ∧ _))

/-- The name of a test case. -/
def caseName (e : Element) : String := (e.get "name").getD ""

variable [ElementTree]

/-- `ElementTree.fromstring` of the decoded report, declarations refused. -/
def parseRoot (content : List Byte) : Except ReportError Element := do
  guardThat (content ≠ [] ∧ content.length ≤ maxReportBytes) (.invalid "report size is invalid")
  match decodeUtf8Sig content with
  | none => .error (.invalid "report is not supported UTF-8 JUnit XML")
  | some text => do
    guardThat (¬ (declares text "<!DOCTYPE" ∨ declares text "<!ENTITY"))
      (.invalid "DTD and entity declarations are forbidden")
    match ElementTree.fromstring text with
    | none => .error (.invalid "report is not supported UTF-8 JUnit XML")
    | some root => .ok root

/-- `parse_report`. -/
def parseReport (content : List Byte) (expected : List String) :
    Except ReportError ReportSummary := do
  let root ← parseRoot content
  guardThat (root.tag ∈ suiteTags) (.invalid "report root must be testsuite or testsuites")
  let elements ← validatedStructure root
  let cases := (elements.map Located.element).filter fun e => e.tag = "testcase"
  guardThat (inventoryMatches (cases.map caseName) expected)
    (.invalid "report does not match the expected test inventory")
  cases.forM checkStatus
  validateCounts elements
  pure ⟨cases.length, cases.countP failedCase, cases.countP fun e => (e.find "skipped").isSome⟩

end Maestro

end NokincFactory
