/-
  File:      NokincFactory/Domain/Preflight.lean
  Subject:   `preflight.py`: the local candidate, its parts, and the digest that binds it.

  A `str` is a list of code points. A field with a length or a pattern takes no surrogates; the
  others take any `str`. A digest field is a digest by its type. `bytes` are lists of bytes.

  * `Hashlib`, `UrlSplit`: SHA-256, and what is used of `urlsplit`;
  * `validateCandidatePath`, `decodedContent`: what paths and contents are held to;
  * `CandidateChange`, `CandidateFile`, `RawWorktree`, `TaskContext`: the parts;
  * `candidateDigest`, `PreflightCandidate.validate`, `PreflightCandidate.create`.
-/
import Mathlib.Data.List.Dedup
import NokincFactory.Domain.PyRecord
import NokincFactory.Domain.PyStrings
import NokincFactory.Lib.Bytes
import NokincFactory.Lib.Checked

namespace NokincFactory

/-- `hashlib.sha256`. -/
class Hashlib where
  sha256 : List Byte → Digest

/-- Texts are hashed in UTF-8. -/
instance [Hashlib] : Sha256 where
  digest text := Hashlib.sha256 (utf8 (pyText text))

namespace Preflight

/-- The message of a `ValueError`. -/
abbrev Message : Type := String

/-! ## 1. Paths and contents -/

/-- The small letter of a letter of ASCII. No other character folds to one of `.git`. -/
def foldAscii (c : CodePoint) : CodePoint :=
  if h : 65 ≤ c.val ∧ c.val ≤ 90 then ⟨c.val + 32, by omega⟩ else c

/-- A part of a path that no path may have. -/
def badPart (part : PyStr) : Bool :=
  part = [] || part = pyStr "." || part = pyStr ".." || part.map foldAscii = pyStr ".git" ||
    part.getLast?.any fun c => isChar c '.' || isChar c ' '

/-- `validate_candidate_path`. -/
def validateCandidatePath (path : PyStr) : Except Message Unit :=
  guardThat (¬ (path.any (fun c => isChar c '\\' || isChar c ':') ∨
      path.any (fun c => c.val < 32 || c.val = 127) ∨ (splitAt '/' path).any badPart))
    "Candidate path must be a canonical repository-relative path"

/-- `tuple(sorted(values))`. -/
def sortedStr (values : List PyStr) : List PyStr := values.insertionSort (· ≤ ·)

/-- `values == tuple(sorted(set(values)))` -/
def SortedUnique (values : List PyStr) : Prop := values = sortedStr values.dedup

instance (values : List PyStr) : Decidable (SortedUnique values) := by
  unfold SortedUnique
  infer_instance

section

variable [Hashlib]

/-- `_decoded_content`. -/
def decodedContent (encoded : PyStr) (digest : Digest) : Except Message (List Byte) :=
  match (encodeAscii encoded).bind b64decode with
  | none => .error "Invalid base64-encoded string"
  | some content => do
      guardThat (pyText (b64encode content) = encoded ∧ Hashlib.sha256 content = digest)
        "content_digest or canonical base64 does not match decoded content"
      pure content

/-! ## 2. Changes, files and the raw worktree -/

inductive CandidateChangeKind where
  | committed | staged | unstaged
deriving DecidableEq

def CandidateChangeKind.value : CandidateChangeKind → String
  | .committed => "committed"
  | .staged => "staged"
  | .unstaged => "unstaged"

/-- A part, by its kind of strings. -/
structure CandidateChange (S : Type) where
  kind : CandidateChangeKind
  paths : List S
  patchBase64 : S
  contentDigest : Digest
deriving DecidableEq

structure CandidateFile (S : Type) where
  path : S
  contentBase64 : S
  contentDigest : Digest
  isBinary : Bool
deriving DecidableEq

structure RawWorktree (S : Type) where
  files : List (CandidateFile S)
  missingPaths : List S
  executablePaths : List S
  gitInputsDigest : Digest
  contentDigest : Digest
deriving DecidableEq

/-- A digest field. -/
def digestJson (digest : Digest) : PyValue := .str (pyText digest.text)

def strList (values : List PyStr) : PyValue := .list (values.map .str)

namespace CandidateChange

/-- `model_dump(mode="json")`. -/
def dump (change : CandidateChange PyStr) : PyValue :=
  .record [("kind", .str (pyStr change.kind.value)), ("paths", strList change.paths),
    ("patch_base64", .str change.patchBase64), ("content_digest", digestJson change.contentDigest)]

/-- `CandidateChange._require_integrity`. -/
def validate (change : CandidateChange PyStr) : Except Message Unit := do
  guardThat (SortedUnique change.paths) "Candidate paths must be sorted and unique"
  change.paths.forM validateCandidatePath
  let _ ← decodedContent change.patchBase64 change.contentDigest

end CandidateChange

namespace CandidateFile

def dump (file : CandidateFile PyStr) : PyValue :=
  .record [("path", .str file.path), ("content_base64", .str file.contentBase64),
    ("content_digest", digestJson file.contentDigest), ("is_binary", .bool file.isBinary)]

/-- `CandidateFile._require_integrity`, after the length of the path. -/
def validate (file : CandidateFile PyStr) : Except Message Unit := do
  guardThat (encodable file.path ∧ file.path ≠ []) "String should have at least 1 character"
  validateCandidatePath file.path
  let content ← decodedContent file.contentBase64 file.contentDigest
  guardThat (file.isBinary = content.contains 0) "is_binary does not match decoded content"

end CandidateFile

/-- The folders above a path: `"/".join(path.split("/")[:i])`. -/
def ancestors (path : PyStr) : List PyStr :=
  let parts := splitAt '/' path
  (List.range' 1 (parts.length - 1)).map fun i => joinParts '/' (parts.take i)

namespace RawWorktree

def paths (raw : RawWorktree PyStr) : List PyStr := raw.files.map CandidateFile.path

/-- `model_dump(mode="json", exclude={"content_digest"})`. -/
def fields (raw : RawWorktree PyStr) : List (String × PyValue) :=
  [("version", .int 2), ("profile", .str (pyStr "git-builtins-no-helpers")),
    ("files", .list (raw.files.map CandidateFile.dump)), ("missing_paths", strList raw.missingPaths),
    ("executable_paths", strList raw.executablePaths),
    ("git_inputs_digest", digestJson raw.gitInputsDigest)]

def dump (raw : RawWorktree PyStr) : PyValue :=
  .record (raw.fields ++ [("content_digest", digestJson raw.contentDigest)])

/-- `RawWorktree._require_integrity`, after the files themselves. -/
def validate (raw : RawWorktree PyStr) : Except Message Unit := do
  raw.files.forM CandidateFile.validate
  [raw.paths, raw.missingPaths, raw.executablePaths].forM fun paths => do
    guardThat (SortedUnique paths) "Raw paths must be sorted and unique"
    paths.forM validateCandidatePath
  guardThat ((∀ path ∈ raw.paths, path ∉ raw.missingPaths) ∧
    ∀ path ∈ raw.executablePaths, path ∈ raw.paths) "Inconsistent raw inventory"
  guardThat (∀ path ∈ raw.paths, ∀ folder ∈ ancestors path, folder ∉ raw.paths)
    "Raw files cannot also be ancestors of other files"
  guardThat (raw.contentDigest = Sha256.digest (PyValue.record raw.fields).dumps)
    "content_digest does not match raw worktree"

end RawWorktree

/-! ## 3. The work item -/

/-- `urllib.parse.SplitResult`. -/
structure SplitResult where
  hostname : Option PyStr
  username : Option PyStr
  password : Option PyStr
  port : Except Message (Option ℕ)
  path : PyStr

/-- `urllib.parse.urlsplit`. -/
class UrlSplit where
  urlsplit : PyStr → Except Message SplitResult

/-- Whether a character is white space to a pattern. -/
def patternSpace (c : CodePoint) : Bool :=
  let n := c.val
  (9 ≤ n && n ≤ 13) || n = 32 || n = 0x85 || n = 0xa0 || n = 0x1680 ||
    (0x2000 ≤ n && n ≤ 0x200a) || n = 0x2028 || n = 0x2029 || n = 0x202f || n = 0x205f || n = 0x3000

/-- `^[^/\s]+/[^/\s]+$` -/
def repositoryPattern (s : PyStr) : Bool :=
  encodable s && (splitAt '/' s).length = 2 && (splitAt '/' s).all (· ≠ []) &&
    !s.any patternSpace

/-- `^[1-9][0-9]*$` -/
def workItemPattern : PyStr → Bool
  | [] => false
  | c :: cs => 49 ≤ c.val && c.val ≤ 57 && cs.all fun d => 48 ≤ d.val && d.val ≤ 57

structure TaskContext (S : Type) where
  provider : S
  repository : S
  workItemId : S
  title : S
  body : S
  labels : List S
  sourceUrl : S
  contentDigest : Digest
deriving DecidableEq

namespace TaskContext

/-- `model_dump(exclude={"content_digest"})`. -/
def payload (task : TaskContext PyStr) : PyValue :=
  .record [("provider", .str task.provider), ("repository", .str task.repository),
    ("work_item_id", .str task.workItemId), ("title", .str task.title), ("body", .str task.body),
    ("labels", strList task.labels), ("source_url", .str task.sourceUrl)]

variable [UrlSplit]

/-- The identity of the source: the chain of conditions of `_require_content_digest`. -/
def validateSource (task : TaskContext PyStr) : Except Message Unit := do
  let parts ← UrlSplit.urlsplit task.sourceUrl
  validateCandidatePath task.repository
  guardThat (task.provider = pyStr "github" ∧ (pyStr "https://").isPrefixOf task.sourceUrl ∧
    parts.hostname ≠ none ∧ parts.username = none ∧ parts.password = none)
    "Unsupported or inconsistent TaskContext source identity"
  let port ← parts.port
  guardThat (port = none ∧
    ¬ task.sourceUrl.any (fun c => isChar c '?' || isChar c '#' || isChar c '\\') ∧
    ¬ task.sourceUrl.any (fun c => c.val ≤ 32 || c.val = 127) ∧
    parts.path = pyStr "/" ++ task.repository ++ pyStr "/issues/" ++ task.workItemId)
    "Unsupported or inconsistent TaskContext source identity"

/-- `TaskContext._require_content_digest`, after the patterns. -/
def validate (task : TaskContext PyStr) : Except Message Unit := do
  guardThat (encodable task.provider ∧ task.provider ≠ [])
    "String should have at least 1 character"
  guardThat (repositoryPattern task.repository) "String should match pattern"
  guardThat (workItemPattern task.workItemId) "String should match pattern"
  guardThat (encodable task.title ∧ task.title ≠ []) "String should have at least 1 character"
  task.validateSource
  guardThat (SortedUnique task.labels ∧ ∀ label ∈ task.labels, label ≠ [])
    "TaskContext labels must be nonempty, sorted and unique"
  guardThat (task.contentDigest = Sha256.digest task.payload.dumps)
    "content_digest does not match TaskContext content"

end TaskContext

/-! ## 4. The candidate -/

/-- The fields of a candidate that its digest is made of. -/
structure CandidateFields (S : Type) where
  baseSha : S
  headSha : S
  taskContext : TaskContext S
  committed : CandidateChange S
  staged : CandidateChange S
  unstaged : CandidateChange S
  untrackedFiles : List (CandidateFile S)
  rawWorktree : Option (RawWorktree S)
deriving DecidableEq

structure PreflightCandidate extends CandidateFields PyStr where
  digest : Digest
deriving DecidableEq

/-- `sorted(files, key=lambda file: file.path)` -/
def sortedFiles (files : List (CandidateFile PyStr)) : List (CandidateFile PyStr) :=
  files.insertionSort fun f g => f.path ≤ g.path

namespace CandidateFields

variable (c : CandidateFields PyStr)

def changes : List (CandidateChange PyStr) := [c.committed, c.staged, c.unstaged]

/-- The payload of `candidate_digest`: an absent worktree leaves no member. -/
def payloadFields : List (String × PyValue) :=
  [("base_sha", .str c.baseSha), ("head_sha", .str c.headSha),
    ("task_context", .record [("provider", .str c.taskContext.provider),
      ("repository", .str c.taskContext.repository),
      ("work_item_id", .str c.taskContext.workItemId),
      ("content_digest", digestJson c.taskContext.contentDigest)]),
    ("changes", .list (c.changes.map CandidateChange.dump)),
    ("untracked_files", .list ((sortedFiles c.untrackedFiles).map CandidateFile.dump))] ++
  match c.rawWorktree with
  | none => []
  | some raw => [("raw_worktree", raw.dump)]

def payload : PyValue := .record c.payloadFields

/-- An untracked file is the file of its path in the raw worktree. -/
def AgreesWith (files : List (CandidateFile PyStr)) (raw : RawWorktree PyStr) : Prop :=
  ∀ file ∈ files, (raw.files.reverse.find? fun g => g.path = file.path) = some file

instance (files : List (CandidateFile PyStr)) (raw : RawWorktree PyStr) :
    Decidable (AgreesWith files raw) := by
  unfold AgreesWith
  infer_instance

/-- The raw worktree, and the untracked files in it. -/
def validateRaw : Except Message Unit :=
  c.rawWorktree.elim (.ok ()) fun raw => do
    raw.validate
    guardThat (AgreesWith c.untrackedFiles raw) "Untracked content disagrees with raw worktree"

variable [UrlSplit]

/-- `candidate_digest`. -/
def candidateDigest : Except Message Digest := do
  c.taskContext.validate
  c.changes.forM CandidateChange.validate
  guardThat (c.changes.map CandidateChange.kind = [.committed, .staged, .unstaged])
    "Candidate change categories do not match their parent slots"
  c.untrackedFiles.forM CandidateFile.validate
  guardThat (c.untrackedFiles.map CandidateFile.path).Nodup "Untracked paths must be unique"
  guardThat (c.baseSha ≠ [] ∧ c.headSha ≠ [])
    "Candidate commit identities must be nonempty strings"
  c.validateRaw
  pure (Sha256.digest c.payload.dumps)

end CandidateFields

namespace PreflightCandidate

variable [UrlSplit]

/-- The validation of a candidate: its fields in their order, then its digest. -/
def validate (c : PreflightCandidate) : Except Message Unit := do
  guardThat (encodable c.baseSha ∧ c.baseSha ≠ []) "String should have at least 1 character"
  guardThat (encodable c.headSha ∧ c.headSha ≠ []) "String should have at least 1 character"
  c.taskContext.validate
  c.changes.forM CandidateChange.validate
  c.untrackedFiles.forM CandidateFile.validate
  guardThat (SortedUnique (c.untrackedFiles.map CandidateFile.path))
    "Untracked paths must be sorted and unique"
  c.rawWorktree.elim (.ok ()) RawWorktree.validate
  let expected ← c.candidateDigest
  guardThat (c.digest = expected) "digest does not match candidate content"

/-- `PreflightCandidate.create`. -/
def create (fields : CandidateFields PyStr) : Except Message PreflightCandidate := do
  let digest ← fields.candidateDigest
  let candidate : PreflightCandidate :=
    { fields with untrackedFiles := sortedFiles fields.untrackedFiles, digest }
  candidate.validate
  pure candidate

end PreflightCandidate

end

end Preflight

end NokincFactory
