/-
  File:      NokincFactory/Lib/Fnmatch.lean
  Subject:   Python's `fnmatch` on a POSIX system: shell patterns that know no separator.

  Case is kept, and a name is a text: bytes without an encoding are not covered.

  * `Wild.parse`: a pattern, as `fnmatch.translate` reads it;
  * `fnmatch`: whether a name as a whole matches a pattern;
  * `fnmatch_marks`: a pattern of question marks matches the names of its length.
-/
import Mathlib.Data.List.Basic

namespace NokincFactory

/-- A piece of a pattern: any text, or one character that is, or is not, in one of some ranges. -/
inductive Wild where
  | star
  | one (negated : Bool) (ranges : List (Char × Char))
deriving DecidableEq

namespace Wild

/-- `?`: every character is in no range. -/
def mark : Wild := .one true []

def literal (c : Char) : Wild := .one false [(c, c)]

/-! ## 1. Brackets -/

/-- The text of a bracket up to the `]` that ends it, and what follows. A `]` that comes first,
also after a `!`, does not end it. -/
def bracket (text : List Char) : Option (List Char × List Char) :=
  let lead := match text with
    | '!' :: ']' :: _ => 2
    | '!' :: _ => 1
    | ']' :: _ => 1
    | _ => 0
  let body := text.take lead ++ (text.drop lead).takeWhile (· ≠ ']')
  match text.drop body.length with
  | _ :: rest => some (body, rest)
  | [] => none

/-- Cut the text of a bracket at the hyphens that make ranges. `skip` characters are passed before
the next one can, and a hyphen at the end makes none. -/
def chunks : (skip : ℕ) → (chunk : List Char) → List Char → List (List Char)
  | _, chunk, [] => [chunk]
  | _, chunk, ['-'] => [chunk ++ ['-']]
  | 0, chunk, '-' :: rest => chunk :: chunks 2 [] rest
  | skip, chunk, c :: rest => chunks (skip - 1) (chunk ++ [c]) rest

/-- Take out the ranges that are empty, from the last one on. -/
def dropEmpty : List (List Char) → List (List Char)
  | [] => []
  | chunk :: rest =>
    match dropEmpty rest with
    | [] => [chunk]
    | next :: later =>
      match chunk.getLast?, next with
      | some last, first :: tail =>
          if last > first then (chunk.dropLast ++ tail) :: later else chunk :: next :: later
      | _, _ => chunk :: next :: later

/-- The characters of a bracket, with `none` for a hyphen that makes a range. -/
def marked (chunks : List (List Char)) : List (Option Char) :=
  ((chunks.map (List.map some)).intersperse [none]).flatten

/-- The ranges of a bracket, as a regular expression reads them. -/
def ranges : List (Option Char) → List (Char × Char)
  | a :: none :: b :: rest => (a.getD '-', b.getD '-') :: ranges rest
  | a :: rest => (a.getD '-', a.getD '-') :: ranges rest
  | [] => []

/-- A bracket with this text. A `!` in front negates it, also where it has come to the front
because an empty range before it was taken out. -/
def ofBracket (body : List Char) : Wild :=
  match marked (dropEmpty (chunks (if body.head? = some '!' then 2 else 1) [] body)) with
  | some '!' :: rest => .one true (ranges rest)
  | characters => .one false (ranges characters)

/-! ## 2. Patterns -/

/-- `fnmatch.translate`: a bracket that does not end is a `[`. The first argument counts the
characters that are left. -/
def parseUpTo : ℕ → List Char → List Wild
  | 0, _ => []
  | _, [] => []
  | n + 1, '*' :: rest => .star :: parseUpTo n rest
  | n + 1, '?' :: rest => mark :: parseUpTo n rest
  | n + 1, '[' :: rest =>
    match bracket rest with
    | some (body, later) => ofBracket body :: parseUpTo n later
    | none => literal '[' :: parseUpTo n rest
  | n + 1, c :: rest => literal c :: parseUpTo n rest

def parse (pattern : List Char) : List Wild := parseUpTo pattern.length pattern

/-- A character is one that a piece asks for. -/
def accepts (negated : Bool) (ranges : List (Char × Char)) (c : Char) : Bool :=
  (ranges.any fun range => range.1 ≤ c && c ≤ range.2) != negated

/-- A name as a whole matches some pieces. -/
def fits : List Wild → List Char → Bool
  | [], name => name.isEmpty
  | .star :: rest, name => name.tails.any (fits rest)
  | .one negated ranges :: rest, name =>
    match name with
    | c :: later => accepts negated ranges c && fits rest later
    | [] => false

end Wild

/-- `fnmatch.fnmatch`. -/
def fnmatch (name pattern : List Char) : Bool := Wild.fits (Wild.parse pattern) name

example : fnmatch "auth/check.py".toList "**/auth/**".toList = false := by decide
example : fnmatch "src/[a].py".toList "*/[[]?].p[!a-x]".toList = true := by decide

theorem Wild.parse_marks (n : ℕ) :
    Wild.parse (List.replicate n '?') = List.replicate n Wild.mark := by
  unfold Wild.parse
  rw [List.length_replicate]
  induction n with
  | zero => rfl
  | succ n ih =>
      rw [List.replicate_succ, List.replicate_succ]
      show Wild.mark :: Wild.parseUpTo n (List.replicate n '?') = _
      rw [ih]

/-- Question marks match the names of their number. -/
theorem fnmatch_marks {n : ℕ} {name : List Char} :
    fnmatch name (List.replicate n '?') = true ↔ name.length = n := by
  unfold fnmatch
  rw [Wild.parse_marks]
  induction n generalizing name with
  | zero => simp [Wild.fits]
  | succ n ih =>
      rw [List.replicate_succ]
      cases name with
      | nil => simp [Wild.fits, Wild.mark]
      | cons c name =>
          have hone : Wild.fits (Wild.mark :: List.replicate n Wild.mark) (c :: name) =
              Wild.fits (List.replicate n Wild.mark) name := by
            simp [Wild.fits, Wild.mark, Wild.accepts]
          rw [hone, ih, List.length_cons, Nat.succ_inj]

end NokincFactory
