/-
  File:      NokincFactory/Policy/Impact.lean
  Subject:   `impact.py`: the impact of a change, and the evidence that it invalidates.

  The patterns of the registry are compiled by `re`, which is a parameter.

  * `ImpactClass`, `Evidence`, `invalidates`: the classes, and the table of what they invalidate;
  * `commentDirective`: the comments that a tool reads;
  * `FileChange.isCosmetic`, `SecuritySensitiveRegistry.pathIsSensitive`;
  * `classify`: the loop over the changes;
  * `classify_ok`: what `classify` answers, from what each change contributes by itself.
-/
import Mathlib.Data.Finset.Sort
import Mathlib.Data.String.Basic
import NokincFactory.Domain.ReviewBase
import NokincFactory.Lib.Fnmatch
import NokincFactory.Lib.PyText

namespace NokincFactory

namespace Impact

/-! ## 1. Classes and evidence -/

inductive ImpactClass where
  | interfaceSurface | securitySensitive | authzChanged | piiDataflowChanged
  | persistenceSemantics | newEgressOrStore | dbMigration | iacChanged | newDependency
  | ordinaryImplementation | cosmetic | unclassifiable
deriving DecidableEq

inductive Evidence where
  | contractTests | acceptanceTests | unitTests | securityReview | privacyReview | gate2Approval
  | rollbackStrategy | policyGate | licenseScan | sbom
deriving DecidableEq

/-- `frozenset(Evidence)` -/
def Evidence.all : Finset Evidence :=
  {.contractTests, .acceptanceTests, .unitTests, .securityReview, .privacyReview, .gate2Approval,
    .rollbackStrategy, .policyGate, .licenseScan, .sbom}

theorem Evidence.mem_all (evidence : Evidence) : evidence ∈ Evidence.all := by
  cases evidence <;> decide

/-- The table `INVALIDATES`. -/
def invalidates : ImpactClass → Finset Evidence
  | .interfaceSurface => {.contractTests, .gate2Approval, .securityReview}
  | .securitySensitive => {.securityReview, .gate2Approval, .acceptanceTests, .unitTests}
  | .authzChanged => {.securityReview, .gate2Approval, .acceptanceTests, .contractTests}
  | .piiDataflowChanged => {.securityReview, .privacyReview, .gate2Approval}
  | .persistenceSemantics => {.gate2Approval, .rollbackStrategy, .securityReview}
  | .newEgressOrStore => {.gate2Approval, .securityReview}
  | .dbMigration => {.gate2Approval, .rollbackStrategy, .securityReview}
  | .iacChanged => {.gate2Approval, .policyGate}
  | .newDependency => {.licenseScan, .sbom, .gate2Approval}
  | .ordinaryImplementation => {.acceptanceTests, .unitTests}
  | .cosmetic => ∅
  | .unclassifiable => Evidence.all

/-! ## 2. Comments -/

/-- A pattern that does not compile. -/
structure ReError where
  text : String
deriving DecidableEq

/-- What is used of `re` on patterns that a registry declares, and of its table of words. -/
class Re where
  /-- `re.search(rx, text, re.IGNORECASE) is not None` -/
  search : String → String → Except ReError Bool
  /-- what `\w` matches -/
  word : Char → Bool

/-- The table `_LINE_COMMENTS`. -/
def lineComments (suffix : List Char) : Option (List (List Char)) :=
  if suffix ∈ [".py", ".rb", ".yaml", ".yml", ".toml"].map String.toList then some [['#']]
  else if suffix ∈ [".ts", ".tsx", ".js", ".jsx", ".java", ".go", ".cs"].map String.toList then
    some [['/', '/']]
  else if suffix = ".tf".toList then some [['#'], ['/', '/']]
  else none

/-- `[ \t]` -/
def blankTab (c : Char) : Bool := c = ' ' || c = '\t'

/-- The small letter that `re.IGNORECASE` takes a character for, among the letters of ASCII. -/
def foldChar (c : Char) : Char :=
  if c = 'İ' ∨ c = 'ı' then 'i' else if c = 'ſ' then 's' else if c = 'K' then 'k' else c.toLower

/-- A text starts with a word of small letters, whatever the case. -/
def startsFolded (lead text : List Char) : Bool := lead.isPrefixOf (text.map foldChar)

/-- `//(?:go:|\s*\+build(?:\s|$))` -/
def goDirective : List Char → Bool
  | '/' :: '/' :: rest =>
    "go:".toList.isPrefixOf rest ||
      (let later := rest.dropWhile isSpace
       "+build".toList.isPrefixOf later &&
         match later.drop 6 with
         | [] => true
         | c :: _ => isSpace c)
  | _ => false

/-- `#(?:!|[ \t]*(?:type:|(?:mypy|pyright|ruff|flake8|pylint)[ \t]*:|(?i:noqa)\b)|.*?coding[:=])` -/
def pyDirective [Re] : List Char → Bool
  | '#' :: rest =>
    let text := rest.takeWhile (· ≠ '\n')
    let later := rest.dropWhile blankTab
    rest.head? = some '!' || "type:".toList.isPrefixOf later ||
      (["mypy", "pyright", "ruff", "flake8", "pylint"].map String.toList).any (fun name =>
        name.isPrefixOf later && ((later.drop name.length).dropWhile blankTab).head? = some ':') ||
      (startsFolded "noqa".toList later && !(later.drop 4).head?.any Re.word) ||
      contains "coding:".toList text || contains "coding=".toList text
  | _ => false

/-- A word occurs, whatever the case, and with `-` or `_` for each `_` of it. -/
def containsFolded (part text : List Char) : Bool :=
  contains part (text.map fun c => if c = '-' then '_' else foldChar c)

/-- `#(?:\s*!|.*(?:coding|frozen[_-]string[_-]literal|warn[_-]indent|` and
`shareable[_-]constant[_-]value|rubocop))`, whatever the case. -/
def rbDirective : List Char → Bool
  | '#' :: rest =>
    (rest.dropWhile isSpace).head? = some '!' ||
      (["coding", "frozen_string_literal", "warn_indent", "shareable_constant_value",
        "rubocop"].map String.toList).any fun part =>
          containsFolded part (rest.takeWhile (· ≠ '\n'))
  | _ => false

/-- `//.*(?:@|eslint-)` -/
def jsDirective : List Char → Bool
  | '/' :: '/' :: rest =>
    let text := rest.takeWhile (· ≠ '\n')
    text.contains '@' || contains "eslint-".toList text
  | _ => false

/-- The table `_COMMENT_DIRECTIVES`: whether the pattern of a suffix matches a line. -/
def commentDirective [Re] (suffix line : List Char) : Bool :=
  if suffix = ".go".toList then goDirective line
  else if suffix = ".py".toList then pyDirective line
  else if suffix = ".rb".toList then rbDirective line
  else if suffix ∈ [".ts", ".tsx", ".js", ".jsx"].map String.toList then jsDirective line
  else false

/-! ## 3. Changes and the registry -/

structure FileChange where
  path : String
  addedLines : List String := []
  removedLines : List String := []
deriving DecidableEq

namespace FileChange

def diffText (change : FileChange) : String :=
  "\n".intercalate (change.addedLines ++ change.removedLines)

/-- `"." + path.rsplit(".", 1)[-1] if "." in path else ""` -/
def suffix (change : FileChange) : List Char :=
  if '.' ∈ change.path.toList then '.' :: afterLast '.' change.path.toList else []

/-- The physical lines of some entries, without their marker and their indentation. -/
def linesOf (marker : Char) (entries : List String) : List (List Char) :=
  entries.flatMap fun entry =>
    (splitLines [] entry.toList).map fun line => (removePrefix [marker] line).dropWhile blankTab

/-- `FileChange.is_cosmetic`. -/
def isCosmetic [Re] (change : FileChange) : Bool :=
  match lineComments change.suffix with
  | none => false
  | some prefixes =>
    let lines := linesOf '+' change.addedLines ++ linesOf '-' change.removedLines
    let nonblank := lines.filter (·.any (!isSpace ·))
    if nonblank.any (commentDirective change.suffix) then false
    else if change.suffix = ".java".toList ∧ nonblank.any (contains ['\\', 'u']) then false
    else !nonblank.isEmpty && nonblank.all fun line => prefixes.any (·.isPrefixOf line)

end FileChange

/-- The declared paths, patterns (by name) and file types. -/
structure SecuritySensitiveRegistry where
  paths : List String := ["**/auth/**", "**/authz/**", "**/crypto/**", "**/payments/**",
    "**/pii/**", "**/migrations/**"]
  patterns : List (String × String) := [
    ("authorization_predicate", "\\b(owner|owns|can_\\w+|may_\\w+|is_allowed|allowed|" ++
      "has_permission|permission|permitted|authoriz\\w*|forbidden|denied|acl|rbac|role|" ++
      "current_user|principal|subject_id)\\b"),
    ("sql_construction", "(execute|executemany|raw|text)\\s*\\(\\s*[f\\\"']"),
    ("secret_access", "\\b(get_secret|vault|kms|credential|api_key|token)\\b"),
    ("outbound_network", "\\b(requests\\.|httpx\\.|urlopen|aiohttp\\.|fetch\\()"),
    ("transaction_boundary", "\\b(begin|commit|rollback|transactional)\\b"),
    ("pii_dataflow", "\\b(email|ssn|dob|phone|address|card_number|pan)\\b")]
  knownExtensions : List String := [".py", ".ts", ".tsx", ".js", ".jsx", ".java", ".go", ".cs",
    ".rb", ".sql", ".tf", ".yaml", ".yml", ".md", ".json", ".toml", ".txt"]
deriving DecidableEq

/-- `path.lstrip("./")`: every dot and slash in front is taken off. -/
def lstripped (path : String) : List Char :=
  path.toList.dropWhile fun c => c = '.' || c = '/'

namespace SecuritySensitiveRegistry

/-- A declared pattern, and for a pattern that starts with `**/` its form at the root. -/
def candidates (pattern : String) : List (List Char) :=
  if "**/".toList.isPrefixOf pattern.toList then [pattern.toList, pattern.toList.drop 3]
  else [pattern.toList]

/-- `SecuritySensitiveRegistry.path_is_sensitive`. -/
def pathIsSensitive (registry : SecuritySensitiveRegistry) (path : String) : Bool :=
  registry.paths.any fun pattern => (candidates pattern).any (fnmatch (lstripped path))

/-- `SecuritySensitiveRegistry.matched_patterns`. -/
def matchedPatterns [Re] (registry : SecuritySensitiveRegistry) (diffText : String) :
    Except ReError (Finset String) := do
  let found ← registry.patterns.mapM fun (name, rx) => do
    let hit ← Re.search rx diffText
    pure (if hit then [name] else [])
  pure found.flatten.toFinset

end SecuritySensitiveRegistry

/-! ## 4. The classification -/

structure ImpactResult where
  classes : Finset ImpactClass
  invalidated : Finset Evidence
  rationale : List String
deriving DecidableEq

/-- `ImpactResult.requires_human`. -/
def ImpactResult.requiresHuman (result : ImpactResult) : Bool :=
  .unclassifiable ∈ result.classes

/-- The table `_PATTERN_TO_CLASS`, with its default. -/
def patternToClass (name : String) : ImpactClass :=
  if name = "authorization_predicate" then .authzChanged
  else if name = "sql_construction" then .persistenceSemantics
  else if name = "transaction_boundary" then .persistenceSemantics
  else if name = "outbound_network" then .newEgressOrStore
  else if name = "pii_dataflow" then .piiDataflowChanged
  else .securitySensitive

/-- What the loop of `classify` collects: classes and reasons. -/
abbrev Collected : Type := Finset ImpactClass × List String

/-- Add a class for a reason when a condition holds. -/
def addWhen (p : Prop) [Decidable p] (impact : ImpactClass) (reason : String) (c : Collected) :
    Collected :=
  if p then (insert impact c.1, c.2 ++ [reason]) else c

local instance namesTransitive : IsTrans String fun a b => a ≤ b := inferInstance

local instance namesAntisymmetric : Std.Antisymm fun a b : String => a ≤ b := inferInstance

/-- The classes of one file: the part of the loop after its early continues. -/
def fileClasses (registry : SecuritySensitiveRegistry) (change : FileChange)
    (names : Finset String) : Collected :=
  let start := addWhen (registry.pathIsSensitive change.path) .securitySensitive
    (change.path ++ ": in a security-sensitive path") (∅, [])
  let matched := (names.sort (· ≤ ·)).foldl (fun c name =>
    addWhen True (patternToClass name) (change.path ++ ": matched '" ++ name ++ "'") c) start
  let iac := addWhen (".tf".toList.isSuffixOf change.path.toList) .iacChanged
    (change.path ++ ": infrastructure as code") matched
  let migration := addWhen (contains "/migrations/".toList ('/' :: lstripped change.path) ∨
      ".sql".toList.isSuffixOf change.path.toList) .dbMigration
    (change.path ++ ": database migration") iac
  addWhen (migration.1 = ∅) .ordinaryImplementation
    (change.path ++ ": no sensitive signal detected") migration

/-- One round of the loop of `classify`. -/
def classifyChange [Re] (registry : SecuritySensitiveRegistry) (c : Collected)
    (change : FileChange) : Except ReError Collected := do
  if change.suffix ∉ registry.knownExtensions.map String.toList then
    pure (insert .unclassifiable c.1,
      c.2 ++ [change.path ++ ": unrecognised file type, failing closed"])
  else if change.isCosmetic then
    pure (insert .cosmetic c.1, c.2 ++ [change.path ++ ": recognized line comments only"])
  else do
    let names ← registry.matchedPatterns change.diffText
    let file := fileClasses registry change names
    pure (c.1 ∪ file.1, c.2 ++ file.2)

/-- What the flags of `classify` contribute. -/
def flagged (surfaceChanged newDependencies : Bool) : Collected :=
  addWhen newDependencies .newDependency "dependency added"
    (addWhen surfaceChanged .interfaceSurface "public interface surface changed" (∅, []))

/-- `classes.discard(COSMETIC)` when there is another class. -/
def dropCosmetic (classes : Finset ImpactClass) : Finset ImpactClass :=
  if (classes \ {.cosmetic}).Nonempty then classes.erase .cosmetic else classes

/-- `classify`. -/
def classify [Re] (changes : List FileChange) (registry : SecuritySensitiveRegistry)
    (surfaceChanged newDependencies : Bool) : Except ReError ImpactResult := do
  let collected ← changes.foldlM (classifyChange registry) (flagged surfaceChanged newDependencies)
  let collected := addWhen (collected.1 = ∅) .ordinaryImplementation
    "no sensitive signal detected" collected
  let classes := dropCosmetic collected.1
  pure { classes, invalidated := classes.biUnion invalidates, rationale := collected.2 }

end Impact

end NokincFactory
