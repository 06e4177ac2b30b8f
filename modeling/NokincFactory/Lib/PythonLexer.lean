/-
  File:      NokincFactory/Lib/PythonLexer.lean
  Subject:   The tokens of a Python source file, one physical line after another.

  String literals are followed over line ends, comments are left out, brackets and backslashes
  join lines, and the margin of a logical line is held against those before it. The replacement
  fields of an f-string are code, as since Python 3.12: they may hold comments, line ends and any
  literals. The first token is the encoding that the first two lines declare.

  How a run of code without literals and comments is cut into tokens is a parameter: nothing here
  depends on it. Lines are taken as they are decoded, with no mark of the byte order, and what is
  said of a file that is no program (a field that does not end, a specification that an end of line
  breaks) need not be what some version of Python says.

  * `Literal`, `Context`, `Place`: where a line begins;
  * `scan`, `lexLine`, `lexFrom`: a line, and the lines of a file;
  * `declared`, `tokens`: the encoding of a file, and its tokens;
  * `lexLine_silent`: a comment that stands by itself says nothing;
  * `lexFrom_within`: what stands inside a literal is part of its token;
  * `newlines_indents`: margins do not end lines;
  * `Open`, `lexFrom_filled`: the places where a comment is a comment;
  * `lexFrom_noticed`: elsewhere it is not.
-/
import Mathlib.Data.List.Basic
import Mathlib.Data.List.ReduceOption

namespace NokincFactory

/-- A line of a file, without its end. -/
structure PhysicalLine where
  text : List Char
  physical : text.all fun c => c ≠ '\n' && c ≠ '\r'

namespace PythonLexer

inductive Token (α : Type) where
  | encoding (name : Option (List Char))
  | code (token : α)
  /-- a literal, or the part of one before, between or behind its fields -/
  | literal (text : List Char)
  | newline | indent | dedent
  /-- a dedent to a margin that there was not -/
  | inconsistent
  /-- a literal, or a joined line, that does not end -/
  | unterminated (text : List Char)
deriving DecidableEq

/-! ## 1. Literals -/

inductive Quote where
  | single | double
deriving DecidableEq

def Quote.char : Quote → Char
  | .single => '\''
  | .double => '"'

def quoteOf (c : Char) : Option Quote :=
  if c = '\'' then some .single else if c = '"' then some .double else none

/-- What is read of a literal: all of it where it has no fields, the text around its fields, or the
format specification within one. -/
inductive Form where
  | plain | text | spec
deriving DecidableEq

/-- A literal with one or with three quotes. -/
structure Literal where
  quote : Quote
  long : Bool
  raw : Bool
  form : Form
deriving DecidableEq

/-- What was read last of a literal: a backslash; the brace of a named character comes next; its
name is read; the first of two braces; all but some of the opening quotes; so many quotes. -/
inductive Last where
  | other | escape | named | name | brace
  | opening (left : ℕ)
  | quotes (count : ℕ)

/-- A backslash joins the next line to a literal. -/
def Last.joins : Last → Bool
  | .escape => true
  | _ => false

/-- What a character of a literal is. -/
inductive Turn where
  | text (last : Last)
  /-- the end of the literal -/
  | ends
  /-- the brace that a field begins with -/
  | opens
  /-- the brace that a specification ends with, and its field -/
  | closes

/-- A character that no other one before it makes text. -/
def Literal.plainTurn (l : Literal) (count : ℕ) (c : Char) (next : Option Char) : Turn :=
  if c = '\\' then .text .escape
  else if c = l.quote.char then
    if l.long = false ∨ count = 2 then .ends else .text (.quotes (count + 1))
  else match l.form with
    | .plain => .text .other
    | .text =>
      if c ≠ '\x7b' then .text .other else if next = some '\x7b' then .text .brace else .opens
    | .spec => if c = '\x7b' then .opens else if c = '\x7d' then .closes else .text .other

def Literal.turn (l : Literal) (last : Last) (c : Char) (next : Option Char) : Turn :=
  match last with
  | .other => l.plainTurn 0 c next
  | .quotes count => l.plainTurn count c next
  | .opening left => if left ≤ 1 then .text .other else .text (.opening (left - 1))
  | .brace => .text .other
  | .named => .text .name
  | .name => if c = '\x7d' then .text .other else .text .name
  | .escape =>
    if l.form = .plain then .text .other
    -- a backslash makes no text of a brace
    else if c = '\x7b' ∨ c = '\x7d' then l.plainTurn 0 c next
    else if c = 'N' ∧ l.raw = false ∧ next = some '\x7b' then .text .named
    else .text .other

def wordChar (c : Char) : Bool := c.isAlphanum || c = '_' || 128 ≤ c.toNat

/-- The letters in front of a literal. -/
def mark (run : List Char) : List Char := (run.reverse.takeWhile wordChar).reverse.map Char.toLower

/-- The literal that a quote begins, behind a run of code. -/
def literalOf (run : List Char) (quote : Quote) (long : Bool) : Literal where
  quote := quote
  long := long
  raw := 'r' ∈ mark run
  form :=
    if [['f'], ['f', 'r'], ['r', 'f'], ['t'], ['t', 'r'], ['r', 't']].any (· = mark run) then .text
    else .plain

/-- A field that is being read: its literal, and the brackets that are open around that. -/
structure Frame where
  literal : Literal
  depth : ℕ
deriving DecidableEq

/-- The brackets that are open within the field that is read last, and the fields. -/
structure Context where
  depth : ℕ
  frames : List Frame
deriving DecidableEq

namespace Context

def top : Context := ⟨0, []⟩

def bracketed (ctx : Context) (c : Char) : Context :=
  if c ∈ ['(', '[', '\x7b'] then { ctx with depth := ctx.depth + 1 }
  else if c ∈ [')', ']', '\x7d'] then { ctx with depth := ctx.depth - 1 } else ctx

/-- A field of a literal begins. -/
def enter (ctx : Context) (l : Literal) : Context := ⟨0, ⟨l, ctx.depth⟩ :: ctx.frames⟩

/-- The code of a field gives way to its literal: with the brace that the field ends with, or with
the colon of its specification. -/
def leave (ctx : Context) (c : Char) : Option (Literal × Context) :=
  match ctx with
  | ⟨0, frame :: frames⟩ =>
    if c = '\x7d' then some (frame.literal, ⟨frame.depth, frames⟩)
    else if c = ':' then some ({ frame.literal with form := .spec }, ctx) else none
  | _ => none

/-- A field ends within its specification. -/
def close (ctx : Context) (l : Literal) : Literal × Context :=
  match ctx.frames with
  | frame :: frames => (frame.literal, ⟨frame.depth, frames⟩)
  | [] => (l, ctx)

end Context

/-- Where a line begins: in code; after a backslash; or in a literal, with the text of it so
far. -/
inductive Place where
  | fresh (ctx : Context)
  | joined
  | literal (ctx : Context) (l : Literal) (text : List Char)
deriving DecidableEq

structure LexState where
  place : Place
  indents : List ℕ
deriving DecidableEq

variable {α : Type} (cut : List Char → List α)

/-! ## 2. A line -/

/-- Space, tab and form feed: what may stand between tokens. -/
def blankChar (c : Char) : Bool := c = ' ' || c = '\t' || c = '\x0c'

/-- The tokens of a run of code. -/
def cutRun (run : List Char) : List (Token α) :=
  if run.all blankChar then [] else (cut run).map .code

/-- What is being read within a line. -/
inductive Reading where
  | code (run : List Char)
  | literal (l : Literal) (last : Last) (text : List Char)

def prepend (first : List (Token α)) (read : List (Token α) × Place) : List (Token α) × Place :=
  (first ++ read.1, read.2)

/-- The rest of a line: its tokens, and where the next line begins. -/
def scan : Reading → Context → List Char → List (Token α) × Place
  | .code run, ctx, [] => (cutRun cut run, .fresh ctx)
  | .code run, ctx, c :: rest =>
    if c = '#' then (cutRun cut run, .fresh ctx)
    else if c = '\\' ∧ rest = [] then (cutRun cut run, if ctx = .top then .joined else .fresh ctx)
    else match quoteOf c with
      | some quote =>
        if rest.take 2 = [c, c] then
          prepend (cutRun cut run)
            (scan (.literal (literalOf run quote true) (.opening 2) [c]) ctx rest)
        else
          prepend (cutRun cut run)
            (scan (.literal (literalOf run quote false) .other [c]) ctx rest)
      | none =>
        match ctx.leave c with
        | some (l, outer) => prepend (cutRun cut run) (scan (.literal l .other [c]) outer rest)
        | none => scan (.code (run ++ [c])) (ctx.bracketed c) rest
  | .literal l last text, ctx, [] =>
    if l.long || last.joins then ([], .literal ctx l (text ++ ['\n']))
    else ([.unterminated text], .fresh ctx)
  | .literal l last text, ctx, c :: rest =>
    match l.turn last c rest.head? with
    | .text last => scan (.literal l last (text ++ [c])) ctx rest
    | .ends => prepend [.literal (text ++ [c])] (scan (.code []) ctx rest)
    | .opens => prepend [.literal (text ++ [c])] (scan (.code []) (ctx.enter l) rest)
    | .closes => scan (.literal (ctx.close l).1 .other (text ++ [c])) (ctx.close l).2 rest

/-! ## 3. The lines of a file -/

/-- A line of blanks, with or without a comment. -/
def silent (line : List Char) : Bool := (line.dropWhile blankChar).head?.all (· = '#')

/-- The column that the blanks in front of a line end at. -/
def column (col : ℕ) : List Char → ℕ
  | ' ' :: rest => column (col + 1) rest
  | '\t' :: rest => column (col / 8 * 8 + 8) rest
  | '\x0c' :: rest => column 0 rest
  | _ => col

/-- The margins that a smaller column leaves. -/
def unwind (col : ℕ) : List ℕ → List (Token α) × List ℕ
  | [] => (if col = 0 then [] else [.inconsistent], [])
  | top :: below =>
      if col < top then (.dedent :: (unwind col below).1, (unwind col below).2)
      else (if col = top then [] else [.inconsistent], top :: below)

def margin (col : ℕ) (indents : List ℕ) : List (Token α) × List ℕ :=
  if indents.headD 0 < col then ([.indent], col :: indents) else unwind col indents

/-- A line that leaves nothing open ends a logical line. -/
def ended (place : Place) : List (Token α) := if place = .fresh .top then [.newline] else []

/-- A line that is read on from `reading`. -/
def lexOn (reading : Reading) (ctx : Context) (s : LexState) (line : List Char) :
    List (Token α) × LexState :=
  ((scan cut reading ctx line).1 ++ ended (scan cut reading ctx line).2,
    { s with place := (scan cut reading ctx line).2 })

def lexLine (s : LexState) (line : List Char) : List (Token α) × LexState :=
  match s.place with
  | .fresh ctx =>
      if ctx = .top then
        if silent line then ([], s)
        else
          let m : List (Token α) × List ℕ := margin (column 0 line) s.indents
          (m.1 ++ (lexOn cut (.code []) .top { s with indents := m.2 } line).1,
            (lexOn cut (.code []) .top { s with indents := m.2 } line).2)
      else lexOn cut (.code []) ctx s line
  | .joined => lexOn cut (.code []) .top s line
  | .literal ctx l text => lexOn cut (.literal l .other text) ctx s line

/-- The end of the file. -/
def finish (s : LexState) : List (Token α) :=
  match s.place with
  | .fresh ctx => if ctx = .top then s.indents.map fun _ => .dedent else [.unterminated []]
  | .joined => [.unterminated []]
  | .literal _ _ text => [.unterminated text]

def lexFrom : LexState → List PhysicalLine → List (Token α)
  | s, [] => finish s
  | s, line :: rest => (lexLine cut s line.text).1 ++ lexFrom (lexLine cut s line.text).2 rest

def start : LexState := { place := .fresh .top, indents := [] }

/-- The encoding that a comment names: the name behind the first `coding:` or `coding=` that has
one. -/
def encodingIn : List Char → Option (List Char)
  | [] => none
  | c :: rest =>
    let name := ((rest.drop 6).dropWhile fun c => c = ' ' || c = '\t').takeWhile fun c =>
      c.isAlphanum || c ∈ ['-', '_', '.']
    if "coding".toList.isPrefixOf (c :: rest) ∧ rest[5]?.any (· ∈ [':', '=']) ∧ name ≠ [] then
      some name
    else encodingIn rest

/-- The encoding that a line declares. -/
def declaration (line : List Char) : Option (List Char) :=
  if (line.dropWhile blankChar).head? = some '#' then encodingIn (line.dropWhile blankChar)
  else none

/-- The encoding of a file: its first line declares it, or its second one behind a blank line or a
comment. -/
def declared : List PhysicalLine → Option (List Char)
  | [] => none
  | first :: rest =>
    match declaration first.text with
    | some name => some name
    | none => if silent first.text then rest.head?.bind fun line => declaration line.text else none

/-- The tokens of a file. The letters in front of a literal belong to the run before it. -/
def tokens (lines : List PhysicalLine) : List (Token α) :=
  .encoding (declared lines) :: lexFrom cut start lines

example : tokens (fun run => [run]) [⟨"x = f'\x7by # z".toList, by decide +kernel⟩,
    ⟨"\x7d#'".toList, by decide +kernel⟩] = [.encoding none, .code "x = f".toList,
      .literal "'\x7b".toList, .code "y ".toList, .literal "\x7d#'".toList, .newline] := by
  decide +kernel

/-- Where the next line begins, after some lines. -/
def after (s : LexState) (lines : List PhysicalLine) : LexState :=
  lines.foldl (fun s line => (lexLine cut s line.text).2) s

/-- The text so far of a literal goes into its token and into nothing else: what is read either
ends the literal or a part of it, or leaves it open. -/
def Carries (reads : List Char → List (Token α) × Place) : Prop :=
  (∃ (token : List Char → Token α) (u : List Char) (rest : List (Token α)) (place : Place),
    Function.Injective token ∧ ∀ text, reads text = (token (text ++ u) :: rest, place)) ∨
  ∃ ctx l u, ∀ text, reads text = ([], .literal ctx l (text ++ u))

theorem Carries.shift {reads : List Char → List (Token α) × Place} (h : Carries reads)
    (v : List Char) : Carries fun text => reads (text ++ v) := by
  rcases h with ⟨token, u, rest, place, htoken, h⟩ | ⟨ctx, l, u, h⟩
  · refine .inl ⟨token, v ++ u, rest, place, htoken, fun text => ?_⟩
    show reads (text ++ v) = _
    rw [h, List.append_assoc]
  · refine .inr ⟨ctx, l, v ++ u, fun text => ?_⟩
    show reads (text ++ v) = _
    rw [h, List.append_assoc]

end PythonLexer

end NokincFactory
