/-
  File:      NokincFactory/Adapters/GitCaptureView.lean
  Subject:   `GitCaptureView.populate`: the files of a raw worktree, written below a folder.

  A path is the list of its parts from the root, as the names that the file system keeps.

  The handles of the operating system, links and other processes are not covered: a file of the
  model is its path and its bytes.

  * `pathParts`, `joinPath`, `resolve`: what `/` and the system make of a path;
  * `populateFile`, `populate`: the loop over the files.
-/
import NokincFactory.Domain.Preflight
import NokincFactory.Lib.FileTree

namespace NokincFactory

namespace Preflight

/-- The files of a system, by the names of their paths. -/
abbrev Files : Type := FileTree PyStr (List Byte)

inductive PopulateError where
  | value (message : Message)
  | os (error : FileError)
deriving DecidableEq

/-- The parts that `pathlib` keeps of a path. -/
def pathParts (path : PyStr) : List PyStr :=
  (splitAt '/' path).filter fun part => part ≠ [] ∧ part ≠ pyStr "."

/-- `base / path`: an absolute path takes the place of the base. -/
def joinPath (base : List PyStr) (path : PyStr) : List PyStr :=
  if path.head?.any (isChar · '/') then pathParts path else base ++ pathParts path

/-- Where the system goes on a path: `..` goes up. -/
def resolve (parts : List PyStr) : List PyStr :=
  parts.foldl (fun reached part =>
    if part = pyStr ".." then reached.dropLast else reached ++ [part]) []

namespace CandidateFile

/-- `b64decode(file.content_base64)`. Of what `_decoded_content` has passed, it decodes the same
with and without `validate`. -/
def content (file : CandidateFile PyStr) : Option (List Byte) :=
  (encodeAscii file.contentBase64).bind b64decode

/-- Where a file goes. -/
def target (worktree : List PyStr) (file : CandidateFile PyStr) : List PyStr :=
  resolve (joinPath worktree file.path)

end CandidateFile

/-- One round of the loop of `populate`. -/
def populateFile (worktree : List PyStr) (raw : RawWorktree PyStr) (tree : Files)
    (file : CandidateFile PyStr) : Except PopulateError Files := do
  let target := file.target worktree
  let tree ← Except.liftWith .os (tree.makeFolders target.dropLast)
  match file.content with
  | none => .error (.value "Invalid base64-encoded string")
  | some content => do
      let tree ← Except.liftWith .os (tree.writeBytes target content)
      Except.liftWith .os (tree.chmod target (file.path ∈ raw.executablePaths))

/-- The loop of `GitCaptureView.populate`. -/
def populate (worktree : List PyStr) (raw : RawWorktree PyStr) (tree : Files) :
    Except PopulateError Files :=
  raw.files.foldlM (populateFile worktree raw) tree

end Preflight

end NokincFactory
