/-
  File:      NokincFactory/Adapters/SubprocessToolchain.lean
  Subject:   `subprocess_toolchain.py`: a command string in argument vectors, without a shell.

  No process is started here, and the branch of `_argv` for Windows is left out.

  * `CommandScan`, `CommandScan.keep`, `splitLoop`, `splitCommands`: `_split_commands`;
  * `argv`: `_argv` on POSIX; the executable lookup is a parameter.
-/
import NokincFactory.Lib.Shlex

namespace NokincFactory

namespace Toolchain

/-- The local state of the loop. -/
structure CommandScan where
  parts : List PyStr
  current : PyStr
  quote : Option Quote
  escaped : Bool
deriving DecidableEq

/-- `character in ";|><", or the backtick`. -/
def shellChar (c : CodePoint) : Bool :=
  isChar c ';' || isChar c '|' || isChar c '>' || isChar c '<' || c.val = 96

/-- What is raised for a character outside quotes, and the characters after it. -/
def unsupported (c : CodePoint) (rest : PyStr) : Option String :=
  if shellChar c then some "Unsupported shell syntax"
  else if isChar c '$' ∧ rest.head?.any (isChar · '(') then some "Unsupported shell substitution"
  else none

/-- The end of the loop's body: a character is refused, or kept. -/
def CommandScan.keep (scan : CommandScan) (c : CodePoint) (rest : PyStr) :
    Except String CommandScan :=
  match (if scan.quote = none then unsupported c rest else none) with
  | some message => .error message
  | none => .ok { scan with current := scan.current ++ [c] }

/-- The loop of `_split_commands`. -/
def splitLoop : PyStr → CommandScan → Except String CommandScan
  | [], scan => .ok scan
  | c :: rest, scan =>
    let kept := scan.current ++ [c]
    if scan.escaped then splitLoop rest { scan with current := kept, escaped := false }
    else if isChar c '\\' ∧ scan.quote ≠ some .single then
      splitLoop rest { scan with current := kept, escaped := true }
    else match quoteMark c with
      | some mark =>
        let quote := if scan.quote = some mark then none else scan.quote.or (some mark)
        splitLoop rest { scan with current := kept, quote }
      | none =>
        match rest with
        | [] => scan.keep c []
        | d :: after =>
          if scan.quote = none ∧ isChar c '&' ∧ isChar d '&' then
            splitLoop after { scan with parts := scan.parts ++ [pyStrip scan.current], current := [] }
          else scan.keep c (d :: after) >>= splitLoop (d :: after)

/-- `_split_commands`. -/
def splitCommands (command : PyStr) : Except String (List PyStr) := do
  let scan ← splitLoop command ⟨[], [], none, false⟩
  guardThat (scan.quote = none ∧ ¬ scan.escaped) "Unterminated command quoting"
  let parts := scan.parts ++ [pyStrip scan.current]
  guardThat ([] ∉ parts) "Empty command segment"
  pure parts

/-- The executable that the lookup finds takes the place of the first argument. -/
def located (which : PyStr → Option PyStr) : List PyStr → List PyStr
  | [] => []
  | executable :: arguments => (which executable).getD executable :: arguments

/-- `_argv`, with `shutil.which` on the search path. -/
def argv (which : PyStr → Option PyStr) (command : PyStr) : Except String (List (List PyStr)) := do
  let parts ← splitCommands command
  parts.mapM fun part => do
    let values ← shlexSplit part
    guardThat (values ≠ []) "Empty command segment"
    pure (located which values)

end Toolchain

end NokincFactory
