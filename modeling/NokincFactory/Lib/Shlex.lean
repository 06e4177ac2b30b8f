/-
  File:      NokincFactory/Lib/Shlex.lean
  Subject:   `shlex.split` in POSIX mode, without comments, and `shlex.quote`.

  * `ShlexState`, `ShlexState.next`: where the reader stands, and one character;
  * `Shlex.read`, `shlexSplit`: the tokens of a string;
  * `shlexQuote`: an argument as one token; `shlexSplit_quoted`: and read back;
  * `pyStrip`: `str.strip`; `pyStrip_padded`: what it leaves of a trimmed text.
-/
import Mathlib.Data.List.DropRight
import NokincFactory.Domain.PyStrings
import NokincFactory.Lib.Checked

namespace NokincFactory

/-! ## 1. The reader -/

inductive Quote where
  | single | double
deriving DecidableEq

def Quote.char : Quote → Char
  | .single => '\''
  | .double => '"'

/-- The quotes that a character opens. -/
def quoteMark (c : CodePoint) : Option Quote :=
  if isChar c '\'' then some .single else if isChar c '"' then some .double else none

/-- Between two tokens, in one, in quotes, or behind a backslash: outside quotes or inside. -/
inductive ShlexState where
  | space | word
  | quote (mark : Quote)
  | escape (back : Option Quote)
deriving DecidableEq

/-- What separates tokens. -/
def shlexBlank (c : CodePoint) : Bool :=
  isChar c ' ' || isChar c '\t' || isChar c '\r' || isChar c '\n'

namespace ShlexState

/-- Outside quotes, and not behind a backslash. -/
def plain : ShlexState → Bool
  | space | word => true
  | quote _ | escape _ => false

/-- Where the reader stands after a character. -/
def next : ShlexState → CodePoint → ShlexState
  | space, c | word, c =>
    if shlexBlank c then space
    else if isChar c '\\' then escape none
    else match quoteMark c with
      | some mark => quote mark
      | none => word
  | quote mark, c =>
    if isChar c mark.char then word
    else if isChar c '\\' ∧ mark = .double then escape (some mark)
    else quote mark
  | escape none, _ => word
  | escape (some mark), _ => quote mark

/-- What a character adds to the token. In quotes, a backslash stays before what it does not
escape. -/
def adds : ShlexState → CodePoint → PyStr
  | space, c | word, c => if isChar c '\\' ∨ (quoteMark c).isSome then [] else [c]
  | quote mark, c =>
    if isChar c mark.char ∨ (isChar c '\\' ∧ mark = .double) then [] else [c]
  | escape none, c => [c]
  | escape (some mark), c =>
    if isChar c '\\' ∨ isChar c mark.char then [c] else pyStr "\\" ++ [c]

end ShlexState

/-- The reader: the token so far, whether it had quotes, and the tokens before it. -/
structure Shlex where
  state : ShlexState
  token : PyStr
  quoted : Bool
  tokens : List PyStr
deriving DecidableEq

namespace Shlex

def start : Shlex := ⟨.space, [], false, []⟩

/-- A token is emitted if it has a character or had quotes. -/
def emit (reader : Shlex) : List PyStr :=
  if reader.token ≠ [] ∨ reader.quoted then reader.tokens ++ [reader.token] else reader.tokens

def inQuotes (reader : Shlex) : Bool :=
  match reader.state with
  | .quote _ => true
  | _ => false

/-- One character. -/
def read (reader : Shlex) (c : CodePoint) : Shlex :=
  if reader.state.plain ∧ shlexBlank c then ⟨.space, [], false, reader.emit⟩
  else
    ⟨reader.state.next c, reader.token ++ reader.state.adds c, reader.quoted || reader.inQuotes,
      reader.tokens⟩

end Shlex

/-- `shlex.split`. -/
def shlexSplit (s : PyStr) : Except String (List PyStr) :=
  let reader := s.foldl Shlex.read .start
  match reader.state with
  | .quote _ => .error "No closing quotation"
  | .escape _ => .error "No escaped character"
  | .space | .word => .ok reader.emit

/-! ## 2. Quoting -/

/-- What `quote` leaves as it is. -/
def shlexSafe (c : CodePoint) : Bool :=
  (48 ≤ c.val && c.val ≤ 57) || (65 ≤ c.val && c.val ≤ 90) || (97 ≤ c.val && c.val ≤ 122) ||
    (pyStr "_@%+=:,.-/").contains c

/-- What stands for a character between single quotes. -/
def quotedChar (c : CodePoint) : PyStr :=
  if isChar c '\'' then pyStr "'\"'\"'" else [c]

/-- `shlex.quote`. -/
def shlexQuote (s : PyStr) : PyStr :=
  if s = [] then pyStr "''"
  else if s.all shlexSafe then s
  else pyStr "'" ++ s.flatMap quotedChar ++ pyStr "'"

/-- A safe character means nothing to a shell. -/
theorem safe_ne {c : CodePoint} {a : Char} (ha : shlexSafe ⟨a.toNat, toNat_codePoint a⟩ = false)
    (h : shlexSafe c = true) : isChar c a = false := by
  rw [Bool.eq_false_iff]
  intro hc
  rw [isChar_eq hc, ha] at h
  cases h

theorem safe_word {c : CodePoint} (h : shlexSafe c = true) :
    shlexBlank c = false ∧ isChar c '\\' = false ∧ quoteMark c = none := by
  have hspace := safe_ne (a := ' ') (by decide) h
  have htab := safe_ne (a := '\t') (by decide) h
  have hreturn := safe_ne (a := '\r') (by decide) h
  have hline := safe_ne (a := '\n') (by decide) h
  have hbackslash := safe_ne (a := '\\') (by decide) h
  have hsingle := safe_ne (a := '\'') (by decide) h
  have hdouble := safe_ne (a := '"') (by decide) h
  refine ⟨?_, hbackslash, ?_⟩
  · simp [shlexBlank, hspace, htab, hreturn, hline]
  · simp [quoteMark, hsingle, hdouble]

namespace Shlex

/-- Safe characters make a token. -/
theorem foldl_safe {s : PyStr} (h : s.all shlexSafe) {reader : Shlex}
    (hplain : reader.state.plain) (hs : s ≠ []) :
    s.foldl read reader = { reader with state := .word, token := reader.token ++ s } := by
  induction s generalizing reader with
  | nil => exact absurd rfl hs
  | cons c s ih =>
    obtain ⟨hc, hrest⟩ := Bool.and_eq_true_iff.mp (List.all_cons.symm.trans h)
    obtain ⟨hblank, hbackslash, hmark⟩ := safe_word hc
    have hread : reader.read c = { reader with state := .word, token := reader.token ++ [c] } := by
      obtain ⟨state, token, quoted, tokens⟩ := reader
      cases state with
      | space => simp [read, hblank, inQuotes, ShlexState.next, ShlexState.adds, hbackslash, hmark]
      | word => simp [read, hblank, inQuotes, ShlexState.next, ShlexState.adds, hbackslash, hmark]
      | quote mark => cases hplain
      | escape back => cases hplain
    rw [List.foldl_cons, hread]
    by_cases hempty : s = []
    · rw [hempty]
      rfl
    · rw [ih hrest rfl hempty]
      simp

/-- What stands between single quotes is read as it was. -/
theorem foldl_quotedChar {s : PyStr} {reader : Shlex} (hstate : reader.state = .quote .single) :
    (s.flatMap quotedChar).foldl read reader =
      { reader with token := reader.token ++ s, quoted := reader.quoted || !s.isEmpty } := by
  induction s generalizing reader with
  | nil => simp
  | cons c s ih =>
    obtain ⟨state, token, quoted, tokens⟩ := reader
    obtain rfl : state = .quote .single := hstate
    have hread : (quotedChar c).foldl read ⟨.quote .single, token, quoted, tokens⟩ =
        ⟨.quote .single, token ++ [c], true, tokens⟩ := by
      rw [quotedChar]
      by_cases hc : isChar c '\''
      · rw [if_pos hc, isChar_eq hc]
        simp [pyStr, pyText, read, ShlexState.plain, inQuotes, ShlexState.next, ShlexState.adds,
          isChar, quoteMark, Quote.char, shlexBlank]
      · rw [if_neg hc]
        simp [read, ShlexState.plain, inQuotes, ShlexState.next, ShlexState.adds, Quote.char, hc]
    rw [List.flatMap_cons, List.foldl_append, hread, ih rfl]
    simp

/-- A quoted argument is one token, whatever it is. -/
theorem foldl_quote (s : PyStr) (tokens : List PyStr) :
    ∃ quoted, (shlexQuote s).foldl read ⟨.space, [], false, tokens⟩ = ⟨.word, s, quoted, tokens⟩ ∧
      (s ≠ [] ∨ quoted) := by
  rw [shlexQuote]
  by_cases hempty : s = []
  · refine ⟨true, ?_, .inr rfl⟩
    rw [if_pos hempty, hempty]
    rfl
  · rw [if_neg hempty]
    by_cases hsafe : s.all shlexSafe
    · refine ⟨false, ?_, .inl hempty⟩
      rw [if_pos hsafe, foldl_safe hsafe rfl hempty]
      rfl
    · refine ⟨true, ?_, .inl hempty⟩
      have hopen : (pyStr "'").foldl read ⟨.space, [], false, tokens⟩ =
          ⟨.quote .single, [], false, tokens⟩ := rfl
      have hclose : ∀ quoted, (pyStr "'").foldl read ⟨.quote .single, s, quoted, tokens⟩ =
          ⟨.word, s, true, tokens⟩ := by
        intro quoted
        simp [pyStr, pyText, read, ShlexState.plain, inQuotes, ShlexState.next, ShlexState.adds,
          isChar, Quote.char]
      rw [if_neg hsafe, List.foldl_append, List.foldl_append, hopen, foldl_quotedChar rfl]
      exact hclose _

theorem read_blank {s : PyStr} {quoted : Bool} (h : s ≠ [] ∨ quoted) (tokens : List PyStr)
    {c : CodePoint} (hc : shlexBlank c) :
    read ⟨.word, s, quoted, tokens⟩ c = ⟨.space, [], false, tokens ++ [s]⟩ := by
  simp only [read, ShlexState.plain, hc, and_self, if_true, emit]
  rw [if_pos h]

end Shlex

/-- The arguments of a command, quoted and with blanks between them. -/
def commandText (argv : List PyStr) : PyStr := (pyStr " ").intercalate (argv.map shlexQuote)

theorem commandText_one (argument : PyStr) : commandText [argument] = shlexQuote argument := by
  simp [commandText, List.intercalate]

theorem commandText_cons (first next : PyStr) (more : List PyStr) :
    commandText (first :: next :: more) =
      shlexQuote first ++ (pyStr " " ++ commandText (next :: more)) := by
  simp [commandText, List.intercalate]

theorem foldl_commandText (first : PyStr) (more tokens : List PyStr) :
    ∃ last : Shlex, (commandText (first :: more)).foldl Shlex.read ⟨.space, [], false, tokens⟩ = last ∧
      last.state = .word ∧ last.emit = tokens ++ first :: more := by
  induction more generalizing first tokens with
  | nil =>
    obtain ⟨quoted, hfirst, hsome⟩ := Shlex.foldl_quote first tokens
    rw [commandText_one]
    exact ⟨_, hfirst, rfl, if_pos hsome⟩
  | cons next more ih =>
    obtain ⟨quoted, hfirst, hsome⟩ := Shlex.foldl_quote first tokens
    obtain ⟨last, hlast, hstate, hemit⟩ := ih next (tokens ++ [first])
    refine ⟨last, ?_, hstate, ?_⟩
    · have hblank : (pyStr " ").foldl Shlex.read ⟨.word, first, quoted, tokens⟩ =
          ⟨.space, [], false, tokens ++ [first]⟩ :=
        Shlex.read_blank (c := 32) hsome tokens (by decide)
      rw [commandText_cons, List.foldl_append, hfirst, List.foldl_append, hblank]
      exact hlast
    · rw [hemit, List.append_assoc]
      rfl

/-- What was quoted is read back. -/
theorem shlexSplit_quoted {argv : List PyStr} (h : argv ≠ []) :
    shlexSplit (commandText argv) = .ok argv := by
  cases argv with
  | nil => exact absurd rfl h
  | cons first more =>
    obtain ⟨last, hlast, hstate, hemit⟩ := foldl_commandText first more []
    rw [shlexSplit, Shlex.start, hlast, hstate, hemit]
    rfl

/-! ## 3. Blanks at the ends -/

/-- What `str.strip` removes. -/
def pySpace (c : CodePoint) : Bool :=
  let n := c.val
  (9 ≤ n && n ≤ 13) || (28 ≤ n && n ≤ 32) || n = 0x85 || n = 0xa0 || n = 0x1680 ||
    (0x2000 ≤ n && n ≤ 0x200a) || n = 0x2028 || n = 0x2029 || n = 0x202f || n = 0x205f ||
    n = 0x3000

/-- `str.strip`. -/
def pyStrip (s : PyStr) : PyStr := (s.dropWhile pySpace).rdropWhile pySpace

/-- A text that neither starts nor ends with a blank. -/
structure Trimmed (s : PyStr) : Prop where
  nonempty : s ≠ []
  first : ∀ c ∈ s.head?, pySpace c = false
  last : ∀ c ∈ s.getLast?, pySpace c = false

theorem pyStrip_padded {lead s trail : PyStr} (hlead : lead.all pySpace) (hs : Trimmed s)
    (htrail : trail.all pySpace) : pyStrip (lead ++ s ++ trail) = s := by
  have hfirst : (lead ++ (s ++ trail)).dropWhile pySpace = s ++ trail := by
    rw [List.dropWhile_append_of_pos (List.all_eq_true.mp hlead)]
    cases s with
    | nil => exact absurd rfl hs.nonempty
    | cons c s =>
      have hc := hs.first c rfl
      simp [hc]
  have hlast : (s ++ trail).rdropWhile pySpace = s := by
    rw [List.rdropWhile, List.reverse_append, List.dropWhile_append_of_pos]
    · cases hreverse : s.reverse with
      | nil => exact absurd (List.reverse_eq_nil_iff.mp hreverse) hs.nonempty
      | cons c rest =>
        have hmem : c ∈ s.getLast? := by
          rw [← List.head?_reverse, hreverse]
          rfl
        have hc := hs.last c hmem
        rw [List.dropWhile_cons_of_neg (by simp [hc]), ← hreverse, List.reverse_reverse]
    · intro c hc
      exact List.all_eq_true.mp htrail c (List.mem_reverse.mp hc)
  rw [pyStrip, List.append_assoc, hfirst, hlast]

theorem trimmed_one {c : CodePoint} (h : pySpace c = false) : Trimmed [c] := by
  refine ⟨List.cons_ne_nil c [], fun d hd => ?_, fun d hd => ?_⟩
  · cases hd
    exact h
  · cases hd
    exact h

theorem Trimmed.append {s t : PyStr} (hs : Trimmed s) (ht : Trimmed t) (middle : PyStr) :
    Trimmed (s ++ (middle ++ t)) := by
  refine ⟨List.append_ne_nil_of_left_ne_nil hs.nonempty _, ?_, ?_⟩
  · intro c hc
    rw [List.head?_append_of_ne_nil s hs.nonempty] at hc
    exact hs.first c hc
  · intro c hc
    rw [← List.append_assoc, List.getLast?_append_of_ne_nil _ ht.nonempty] at hc
    exact ht.last c hc

/-- A quoted argument neither starts nor ends with a blank. -/
theorem trimmed_quote (s : PyStr) : Trimmed (shlexQuote s) := by
  rw [shlexQuote]
  by_cases hempty : s = []
  · rw [if_pos hempty]
    have hmark : Trimmed (pyStr "'") := trimmed_one (by decide)
    exact hmark.append hmark []
  · rw [if_neg hempty]
    by_cases hsafe : s.all shlexSafe
    · rw [if_pos hsafe]
      have hword : ∀ c ∈ s, pySpace c = false := by
        intro c hc
        have hsafe := List.all_eq_true.mp hsafe c hc
        simp only [shlexSafe, pySpace] at hsafe ⊢
        have hlist : (pyStr "_@%+=:,.-/").contains c = true → 33 ≤ c.val ∧ c.val < 127 := by
          intro hmem
          have hall : (pyStr "_@%+=:,.-/").all fun d => 33 ≤ d.val ∧ d.val < 127 := by decide
          exact of_decide_eq_true (List.all_eq_true.mp hall c (List.contains_iff_mem.mp hmem))
        simp only [Bool.or_eq_true, Bool.and_eq_true, decide_eq_true_eq] at hsafe
        have hrange : 33 ≤ c.val ∧ c.val < 127 := by
          rcases hsafe with ((h | h) | h) | h
          · omega
          · omega
          · omega
          · exact hlist h
        simp only [Bool.or_eq_false_iff, Bool.and_eq_false_iff, decide_eq_false_iff_not]
        omega
      exact ⟨hempty, fun c hc => hword c (List.mem_of_mem_head? hc),
        fun c hc => hword c (List.mem_of_mem_getLast? hc)⟩
    · rw [if_neg hsafe]
      have hmark : Trimmed (pyStr "'") := trimmed_one (by decide)
      rw [List.append_assoc]
      exact hmark.append hmark _

theorem trimmed_commandText (first : PyStr) (more : List PyStr) :
    Trimmed (commandText (first :: more)) := by
  induction more generalizing first with
  | nil =>
    rw [commandText_one]
    exact trimmed_quote first
  | cons next more ih =>
    rw [commandText_cons]
    exact (trimmed_quote first).append (ih next) _

end NokincFactory
