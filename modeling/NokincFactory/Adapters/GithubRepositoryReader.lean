/-
  File:      NokincFactory/Adapters/GithubRepositoryReader.lean
  Subject:   `github_repository_reader.py`: bounded source evidence of one repository.

  The reader is a program over the credential broker, a clock and a transport, each of which may
  answer anything that its response type admits, or raise.

  * `GitHubTreeEntry`, `GitHubContentResponse`, …: what the transport validates;
  * `SourceLibraries`: case folding, the search of a pattern and SHA-1, which are parameters;
  * `selectSources`: which files of a tree are asked for;
  * `readCodebaseContext`: the reader.
-/
import NokincFactory.Application.Discussion
import NokincFactory.Domain.Preflight
import NokincFactory.Lib.Greedy
import NokincFactory.Lib.PyText
import NokincFactory.Lib.Url

namespace NokincFactory.RepositoryReader

/-! ## 1. What is answered -/

/-- `_GIT_SHA_PATTERN`. -/
def gitSha (sha : String) : Bool :=
  sha.toList.length = 40 && sha.toList.all fun c => ('0' ≤ c && c ≤ '9') || ('a' ≤ c && c ≤ 'f')

/-- `Field(min_length=1, max_length=1024)`. -/
def boundedPath (path : String) : Bool := 1 ≤ path.toList.length && path.toList.length ≤ 1024

inductive TreeType where
  | blob | tree | commit
deriving DecidableEq

structure GitHubTreeEntry where
  path : String
  /-- six octal digits -/
  mode : String
  type : TreeType
  sha : String
  size : Option ℕ
  pathBound : boundedPath path = true
  shaPattern : gitSha sha = true
deriving DecidableEq

structure GitHubTreeResponse where
  sha : String
  truncated : Bool
  tree : List GitHubTreeEntry
  shaPattern : gitSha sha = true
  bounded : tree.length ≤ 20000

/-- A file, in base64. -/
structure GitHubContentResponse where
  path : String
  sha : String
  size : ℕ
  content : String
  bounded : content.toList.length ≤ 200000

structure GitHubRepositoryMetadata where
  id : ℕ
  fullName : String
  /-- `urlsplit(str(html_url)).path`, of an address at `https://github.com` -/
  htmlPath : String
  defaultBranch : String
  isPrivate : Bool
  visibility : String
  archived : Bool
  branch : 1 ≤ defaultBranch.toList.length ∧ defaultBranch.toList.length ≤ 255

structure InstallationToken where
  token : String
  expiresAt : Moment
  repositories : List String

inductive ReaderError where
  | value (message : String)
  /-- `PermissionError` -/
  | permission (message : String)
  /-- a date after the last year -/
  | overflow
  /-- whatever the broker or the transport raises -/
  | provider
deriving DecidableEq

/-- A response model. -/
inductive Resource where
  | metadata | tree | content
deriving DecidableEq

@[reducible] def Resource.Response : Resource → Type
  | .metadata => GitHubRepositoryMetadata
  | .tree => GitHubTreeResponse
  | .content => GitHubContentResponse

/-- What is asked: a token, the time, or a resource of the transport with this token. -/
inductive ReaderAsk where
  | tokenFor (repository : String)
  | clock
  | get (token : String) (path : String) (resource : Resource)

@[reducible] def ReaderAsk.Answer : ReaderAsk → Type
  | .tokenFor _ => Except ReaderError InstallationToken
  | .clock => Moment
  | .get _ _ resource => Except ReaderError resource.Response

abbrev ReaderProg (α : Type) : Type := Prog ReaderAsk ReaderAsk.Answer ReaderError α

def askToken (repository : String) : ReaderProg InstallationToken :=
  .ask (.tokenFor repository) .ofExcept

def askClock : ReaderProg Moment := .send ReaderAsk.clock

def askMetadata (token path : String) : ReaderProg GitHubRepositoryMetadata :=
  .ask (.get token path .metadata) .ofExcept

def askTree (token path : String) : ReaderProg GitHubTreeResponse :=
  .ask (.get token path .tree) .ofExcept

def askContent (token path : String) : ReaderProg GitHubContentResponse :=
  .ask (.get token path .content) .ofExcept

/-! ## 2. The reader -/

local instance lawfulChars : LawfulBEq (List Char) := inferInstance

/-- A name of the allowlist: `owner/name`, neither of them empty, `.` or `..`. -/
def ownerAndName (repository : String) : Option (List Char × List Char) :=
  match segments repository.toList with
  | [owner, name] =>
      if owner ∈ [[], ['.'], ['.', '.']] ∨ name ∈ [[], ['.'], ['.', '.']] then none
      else some (owner, name)
  | _ => none

/-- `GitHubAppRepositoryReader`, as its constructor accepts it. -/
structure Reader where
  repositories : List String
  maxFiles : ℕ
  maxFileBytes : ℕ
  maxTotalBytes : ℕ
  nonempty : repositories ≠ []
  distinct : repositories.Nodup
  named : ∀ repository ∈ repositories, ownerAndName repository ≠ none
  files : 0 < maxFiles ∧ maxFiles ≤ 32
  fileBytes : 0 < maxFileBytes ∧ maxFileBytes ≤ 32000
  totalBytes : 0 < maxTotalBytes ∧ maxTotalBytes ≤ 800000

/-- `str.casefold`, `re.compile(pattern, re.IGNORECASE).search` and `hashlib.sha1`. -/
class SourceLibraries where
  casefoldText : String → String
  searchIgnoringCase : String → String → Bool
  sha1 : List Byte → String

/-- The extensions of `_TEXT_EXTENSIONS`. -/
def textExtensions : List String := [".c", ".cc", ".cpp", ".cs", ".go", ".h", ".hpp", ".java",
  ".js", ".json", ".jsx", ".kt", ".md", ".mjs", ".php", ".py", ".rb", ".rs", ".sql", ".swift",
  ".tf", ".toml", ".ts", ".tsx", ".txt", ".xml", ".yaml", ".yml"]

/-- `_MANIFEST_NAMES`. -/
def manifestNames : List String :=
  ["cargo.toml", "go.mod", "package.json", "pyproject.toml", "requirements.txt"]

/-- `_SENSITIVE_PATH_SEGMENTS`. -/
def sensitiveSegments : List String := [".env", "secret", "secrets", "credential", "credentials",
  "private", "private-key", "keys", "certificates"]

/-- `_SENSITIVE_EXTENSIONS`. -/
def sensitiveExtensions : List String := [".pem", ".key", ".p12", ".pfx", ".keystore"]

/-- `_CREDENTIAL_CONTENT_PATTERNS`. -/
def credentialPatterns : List String := [
  "-----BEGIN (?:RSA |EC |OPENSSH )?PRIVATE KEY-----",
  "\\b(?:AKIA|ASIA)[A-Z0-9]\x7b16\x7d\\b",
  "\\b(?:gh[pousr]_[A-Z0-9]\x7b20,\x7d|github_pat_[A-Z0-9_]\x7b20,\x7d)\\b",
  "\\bsk-(?:proj-|svcacct-)?[A-Z0-9_-]\x7b24,\x7d\\b",
  "\\bAIza[A-Z0-9_-]\x7b30,\x7d\\b",
  "\\bxox[baprs]-[A-Z0-9-]\x7b20,\x7d\\b",
  "\\beyJ[A-Z0-9_-]\x7b10,\x7d\\.[A-Z0-9_-]\x7b10,\x7d\\.[A-Z0-9_-]\x7b10,\x7d\\b",
  "\\bbearer\\s+[A-Z0-9._~+/=-]\x7b24,\x7d",
  "\\b(?:api[_-]?key|client[_-]?secret|password|passwd|access[_-]?token|refresh[_-]?token)\\b" ++
    "\\s*[:=]\\s*['\"]?[A-Z0-9/+_=-]\x7b20,\x7d"]

section

variable [SourceLibraries]

open SourceLibraries

/-! ## 3. Which files -/

/-- The characters of `[a-z0-9]`. -/
def tokenChar (c : Char) : Bool := ('a' ≤ c && c ≤ 'z') || ('0' ≤ c && c ≤ '9')

/-- `re.findall(r"[a-z0-9]{3,}", text)`, the run that is being read last. -/
def findTokens : List Char → List Char → List (List Char)
  | [], run => if 3 ≤ run.length then [run] else []
  | c :: cs, run =>
      if tokenChar c then findTokens cs (run ++ [c])
      else (if 3 ≤ run.length then [run] else []) ++ findTokens cs []

/-- `set(re.findall(…, question.casefold()))`. -/
def queryTokens (question : String) : List (List Char) :=
  (findTokens (casefoldText question).toList []).dedup

/-- A text that is written in ASCII letters, folded. -/
def foldChars (text : List Char) : String := casefoldText (String.ofList text)

/-- `PurePosixPath(entry.path)`: its parts, its name and its suffix, folded. -/
def GitHubTreeEntry.parts (entry : GitHubTreeEntry) : List String :=
  (posixParts entry.path.toList).map foldChars

def GitHubTreeEntry.name (entry : GitHubTreeEntry) : String :=
  foldChars (posixName entry.path.toList)

def GitHubTreeEntry.suffix (entry : GitHubTreeEntry) : String :=
  foldChars (posixSuffix entry.path.toList)

/-- `entry.size or 0`. -/
def sizeOf (entry : GitHubTreeEntry) : ℕ := entry.size.getD 0

/-- What keeps an entry out of the candidates. -/
def Excluded (maxFileBytes : ℕ) (entry : GitHubTreeEntry) : Prop :=
  entry.type ≠ .blob ∨ entry.mode = "120000" ∨ posixAbsolute entry.path.toList = true ∨
    ['.', '.'] ∈ posixParts entry.path.toList ∨ entry.suffix ∉ textExtensions ∨
    entry.suffix ∈ sensitiveExtensions ∨ (∃ part ∈ entry.parts, part ∈ sensitiveSegments) ∨
    ".env".toList <+: entry.name.toList ∨ entry.size = none ∨ maxFileBytes < sizeOf entry

instance (maxFileBytes : ℕ) (entry : GitHubTreeEntry) : Decidable (Excluded maxFileBytes entry) :=
  inferInstanceAs (Decidable (_ ∨ _))

/-- The score of an entry for some tokens. -/
def score (tokens : List (List Char)) (entry : GitHubTreeEntry) : ℕ :=
  4 * tokens.countP (fun token => contains token (casefoldText entry.path).toList) +
    if entry.name = "readme.md" ∧ (posixParts entry.path.toList).length = 1 then 100
    else if entry.name ∈ manifestNames ∧ (posixParts entry.path.toList).length = 1 then 50
    else if entry.suffix ∈ [".py", ".ts", ".tsx", ".js", ".jsx"] then 5
    else 0

/-- `candidates.sort(key=lambda value: (value[0], value[1]))`. -/
def Ranks (tokens : List (List Char)) (a b : GitHubTreeEntry) : Prop :=
  score tokens b < score tokens a ∨
    score tokens a = score tokens b ∧ casefoldText a.path ≤ casefoldText b.path

instance (tokens : List (List Char)) : DecidableRel (Ranks tokens) :=
  fun _ _ => inferInstanceAs (Decidable (_ ∨ _ ∧ _))

/-- The candidates, the best first. -/
def candidates (maxFileBytes : ℕ) (entries : List GitHubTreeEntry) (question : String) :
    List GitHubTreeEntry :=
  (entries.filter fun entry => ¬ Excluded maxFileBytes entry).insertionSort
    (Ranks (queryTokens question))

/-- `_select_sources`. -/
def Reader.selectSources (r : Reader) (entries : List GitHubTreeEntry) (question : String) :
    List GitHubTreeEntry :=
  Greedy.pick sizeOf r.maxFiles r.maxTotalBytes (candidates r.maxFileBytes entries question) 0 0

end

/-! ## 4. Reading -/

/-- `/repos/<owner>/<name>`, and what is below it. -/
def repositoryPath (owner name : List Char) : List Char :=
  "/repos/".toList ++ percentEncode [] (pyText owner) ++ '/' :: percentEncode [] (pyText name)

def treePath (owner name : List Char) (branch : String) : String :=
  String.ofList (repositoryPath owner name ++ "/git/trees/".toList ++
    percentEncode [] (pyStr branch) ++ "?recursive=1".toList)

def contentPath (owner name : List Char) (branch path : String) : String :=
  String.ofList (repositoryPath owner name ++ "/contents/".toList ++
    percentEncode ['/'] (pyStr path) ++ "?ref=".toList ++ percentEncodePlus (pyStr branch))

/-- `binascii.a2b_base64` in its strict mode: letters, and signs at their end that fill up the
last group; after a full group, any number of signs. -/
def strictBase64 (text : List Char) : Option (List Byte) :=
  let data := text.takeWhile (· ≠ '=')
  let pads := text.dropWhile (· ≠ '=')
  if (data = [] ∧ pads ≠ []) ∨ pads.any (· ≠ '=') then none
  else if data.length % 4 = 0 ∨ (data.length % 4 = 2 ∧ pads.length = 2) ∨
      (data.length % 4 = 3 ∧ pads.length = 1) then
    (fromLetters standardLetters data).bind octets
  else none

/-- `content.decode("utf-8")`: surrogates have no encoding. -/
def decodeText (content : List Byte) : Option String :=
  (decodeUtf8 content).bind fun text =>
    if encodable text then some (String.ofList (text.map fun c => Char.ofNat c.val)) else none

/-- `"".join(text.split())`. -/
def withoutBlanks (text : String) : List Char := text.toList.filter fun c => !isSpace c

section

variable [SourceLibraries] [Hashlib]

open SourceLibraries

/-- The SHA of a blob with some content. -/
def blobSha (content : List Byte) : String :=
  sha1 (utf8 (pyStr "blob ") ++ utf8 (pyText (Nat.toDigits 10 content.length)) ++ 0 :: content)

/-- A text in which one of the patterns is found. -/
def CredentialLike (text : String) : Prop :=
  ∃ pattern ∈ credentialPatterns, searchIgnoringCase pattern text = true

instance (text : String) : Decidable (CredentialLike text) :=
  inferInstanceAs (Decidable (∃ pattern ∈ credentialPatterns, _))

/-- A `RepositorySourceFile`, validated. -/
def sourceFile (path blobSha : String) (content : List Byte) (text : String) :
    Except ReaderError RepositorySourceFile := do
  guardThat (boundedPath path = true ∧ gitSha blobSha = true ∧ 1 ≤ text.toList.length ∧
    text.toList.length ≤ 32000) (.value "ValidationError")
  pure ⟨path, blobSha, Hashlib.sha256 content, text⟩

/-- `timedelta(seconds=30)` after a moment. -/
def nearExpiry (now : Moment) : Except ReaderError ℤ :=
  if now.micros + 30 * micro ≤ latest then .ok (now.micros + 30 * micro) else .error .overflow

/-- `_authorized_transport`: the token that every request is sent with. -/
def Reader.authorizedTransport (r : Reader) (repository : String) : ReaderProg String := do
  .insist (repository ∈ r.repositories)
    (.permission "repository is outside the GitHub App allowlist")
  let token ← askToken repository
  .insist (String.ofList (afterLast '/' repository.toList) ∈ token.repositories)
    (.value "installation token is not scoped to the requested repository")
  let now ← askClock
  let soon ← .ofExcept (nearExpiry now)
  .insist (soon < token.expiresAt.micros) (.value "installation token is expired or near expiry")
  pure token.token

/-- `_read_metadata`. -/
def readMetadata (repository : String) (owner name : List Char) (token : String) :
    ReaderProg GitHubRepositoryMetadata := do
  let metadata ← askMetadata token (String.ofList (repositoryPath owner name))
  .insist (casefoldText metadata.fullName = casefoldText repository)
    (.value "GitHub repository identity mismatch")
  .insist (metadata.htmlPath.toList =
      '/' :: percentEncode [] (pyText owner) ++ '/' :: percentEncode [] (pyText name))
    (.value "GitHub repository URL identity mismatch")
  pure metadata

/-- What is asked for one entry, up to its bytes. -/
def Reader.fetchContent (r : Reader) (token path : String) (entry : GitHubTreeEntry) :
    ReaderProg (List Byte) := do
  let response ← askContent token path
  .insist (response.path = entry.path ∧ response.sha = entry.sha)
    (.value "GitHub source file identity mismatch")
  .insist (some response.size = entry.size ∧ response.size ≤ r.maxFileBytes)
    (.value "GitHub source file exceeds the configured size bound")
  let content ← .ofExcept (match strictBase64 (withoutBlanks response.content) with
    | none => .error (.value "GitHub source file content is invalid base64")
    | some content => .ok content)
  .insist (content.length = response.size ∧ (0 : Byte) ∉ content)
    (.value "GitHub source file content is invalid or binary")
  .insist (blobSha content = response.sha) (.value "GitHub source file blob SHA mismatch")
  pure content

/-- The loop over the selected entries, with the files and the bytes read before. -/
def Reader.fetchSources (r : Reader) (token : String) (contentPathOf : GitHubTreeEntry → String) :
    List GitHubTreeEntry → List RepositorySourceFile → ℕ → ReaderProg (List RepositorySourceFile)
  | [], sourceFiles, _ => pure sourceFiles
  | entry :: rest, sourceFiles, totalBytes =>
      if entry.size = none ∨ r.maxFileBytes < sizeOf entry then
        fetchSources r token contentPathOf rest sourceFiles totalBytes
      else r.fetchContent token (contentPathOf entry) entry >>= fun content =>
        match decodeText content with
        | none => fetchSources r token contentPathOf rest sourceFiles totalBytes
        | some text =>
            Prog.insist (¬ CredentialLike text) (.value
              "Repository source contains credential-like material; model analysis is blocked") >>=
            fun _ =>
              if r.maxTotalBytes < totalBytes + content.length then pure sourceFiles
              else Prog.ofExcept (sourceFile entry.path entry.sha content text) >>= fun file =>
                if r.maxFiles ≤ sourceFiles.length + 1 then pure (sourceFiles ++ [file])
                else fetchSources r token contentPathOf rest (sourceFiles ++ [file])
                  (totalBytes + content.length)

/-- What `context_digest` is the digest of. -/
def contextJson (repository branch treeSha : String) (files : List RepositorySourceFile) : Json :=
  .obj [("repository", .text repository), ("default_branch", .text branch),
    ("tree_sha", .text treeSha),
    ("files", .arr (files.map fun file => .obj [("path", .text file.path),
      ("blob_sha", .text file.blobSha), ("content_digest", .str file.contentDigest.text)]))]

/-- `read`. -/
def Reader.read (r : Reader) (repository : String) : ReaderProg GitHubRepositoryMetadata :=
  match ownerAndName repository with
  | none => .raise (.permission "repository is outside the GitHub App allowlist")
  | some (owner, name) => do
      let token ← r.authorizedTransport repository
      readMetadata repository owner name token

/-- `read_codebase_context`. -/
def Reader.readCodebaseContext (r : Reader) (repository question : String) :
    ReaderProg RepositoryCodeContext := do
  .insist (question.toList.any (fun c => !isSpace c) = true ∧ question.toList.length ≤ 20000)
    (.value "repository question must be nonblank and bounded")
  match ownerAndName repository with
  -- no such name is on the allowlist
  | none => .raise (.permission "repository is outside the GitHub App allowlist")
  | some (owner, name) => do
      let token ← r.authorizedTransport repository
      let metadata ← readMetadata repository owner name token
      let tree ← askTree token (treePath owner name metadata.defaultBranch)
      .insist (tree.truncated = false)
        (.value "GitHub repository tree is truncated; source context is incomplete")
      let sourceFiles ← r.fetchSources token
        (fun entry => contentPath owner name metadata.defaultBranch entry.path)
        (r.selectSources tree.tree question) [] 0
      .insist (sourceFiles ≠ [])
        (.value "No bounded UTF-8 source files were available for this question")
      pure
        { repository := repository
          defaultBranch := metadata.defaultBranch
          treeSha := tree.sha
          contextDigest := (contextJson repository metadata.defaultBranch tree.sha
            sourceFiles).contentDigest
          files := sourceFiles }

end

end NokincFactory.RepositoryReader
