/-
  File:      NokincFactory/Toolchain/Splitting.lean
  Subject:   The scanner of `_split_commands` against the reader of `shlex`.

  The reader says of each character whether it stands outside quotes and unescaped; the scanner
  keeps its own account of quotes and backslashes.

  What an executable makes of its arguments is not covered.

  * `marks`, `segments`, `Refused`: the characters of a command, where it is cut, and what is
    refused, by the reader's account;
  * `Agrees`, `splitLoop_step`, `splitLoop_cut`: the two accounts stay one;
  * `splitCommands_ok`: what the scanner gives, for every command;
  * `render`, `argv_render`: quoted arguments come back as they were.
-/
import NokincFactory.Adapters.SubprocessToolchain

namespace NokincFactory

namespace Toolchain

/-! ## 1. Characters by the reader's account -/

/-- A character, and whether it stands outside quotes and unescaped. -/
abbrev Marked : Type := CodePoint × Bool

def marks : ShlexState → PyStr → List Marked
  | _, [] => []
  | state, c :: rest => (c, state.plain) :: marks (state.next c) rest

/-- Where the reader stands at the end. -/
def endState (state : ShlexState) (s : PyStr) : ShlexState := s.foldl ShlexState.next state

/-- A text before the first part. -/
def prepend (s : PyStr) : List PyStr → List PyStr
  | [] => [s]
  | part :: parts => (s ++ part) :: parts

/-- A command cut at each `&&` that stands outside quotes and unescaped. -/
def segments : List Marked → List PyStr
  | [] => [[]]
  | [m] => [[m.1]]
  | m :: n :: rest =>
    if (m.2 ∧ isChar m.1 '&') ∧ n.2 ∧ isChar n.1 '&' then [] :: segments rest
    else prepend [m.1] (segments (n :: rest))

/-- One of `;`, `|`, `>`, `<`, the backtick and `$(`. -/
def Operator (c : CodePoint) (rest : List Marked) : Prop :=
  shellChar c ∨ (isChar c '$' ∧ rest.head?.any fun m => isChar m.1 '(')

/-- An operator stands outside quotes and unescaped. -/
def Refused (ms : List Marked) : Prop :=
  ∃ before c rest, ms = before ++ (c, true) :: rest ∧ Operator c rest

theorem refused_cons {m : Marked} {ms : List Marked} :
    Refused (m :: ms) ↔ (m.2 = true ∧ Operator m.1 ms) ∨ Refused ms := by
  constructor
  · rintro ⟨before, c, rest, heq, hoperator⟩
    cases before with
    | nil =>
      obtain ⟨rfl, rfl⟩ := List.cons.inj heq
      exact .inl ⟨rfl, hoperator⟩
    | cons n before =>
      obtain ⟨-, hrest⟩ := List.cons.inj heq
      exact .inr ⟨before, c, rest, hrest, hoperator⟩
  · rintro (⟨hplain, hoperator⟩ | ⟨before, c, rest, heq, hoperator⟩)
    · obtain ⟨c, plain⟩ := m
      cases hplain
      exact ⟨[], c, ms, rfl, hoperator⟩
    · exact ⟨m :: before, c, rest, by rw [heq]; rfl, hoperator⟩

theorem not_refused_nil : ¬ Refused [] := by
  rintro ⟨before, c, rest, heq, -⟩
  cases before <;> cases heq

theorem map_marks (state : ShlexState) (s : PyStr) : (marks state s).map Prod.fst = s := by
  induction s generalizing state with
  | nil => rfl
  | cons c s ih => rw [marks, List.map_cons, ih]

theorem operator_iff {c : CodePoint} {state : ShlexState} {rest : PyStr} :
    Operator c (marks state rest) ↔ ∃ message, unsupported c rest = some message := by
  have hhead : ((marks state rest).head?.any fun m => isChar m.1 '(') =
      rest.head?.any (isChar · '(') := by
    cases rest <;> rfl
  rw [Operator, hhead, unsupported]
  by_cases hshell : shellChar c
  · simp [hshell]
  · by_cases hdollar : isChar c '$' ∧ rest.head?.any (isChar · '(')
    · simp [hdollar, hshell]
    · simp only [hdollar, hshell]
      simp

theorem segments_ne_nil (ms : List Marked) : segments ms ≠ [] := by
  fun_induction segments ms with
  | case1 => exact List.cons_ne_nil _ _
  | case2 => exact List.cons_ne_nil _ _
  | case3 => exact List.cons_ne_nil _ _
  | case4 m n rest hcut ih =>
    cases hparts : segments (n :: rest) with
    | nil => exact absurd hparts ih
    | cons part parts => exact List.cons_ne_nil _ _

theorem prepend_prepend {s t : PyStr} {parts : List PyStr} (h : parts ≠ []) :
    prepend s (prepend t parts) = prepend (s ++ t) parts := by
  cases parts with
  | nil => exact absurd rfl h
  | cons part parts => simp [prepend]

/-! ## 2. The two accounts -/

/-- The quotes that a state stands in. -/
def quoteOf : ShlexState → Option Quote
  | .space | .word => none
  | .quote mark => some mark
  | .escape back => back

def behindBackslash : ShlexState → Bool
  | .escape _ => true
  | .space | .word | .quote _ => false

/-- The scanner's account is the reader's. -/
structure Agrees (state : ShlexState) (scan : CommandScan) : Prop where
  quote : scan.quote = quoteOf state
  escaped : scan.escaped = behindBackslash state

theorem plain_iff {state : ShlexState} :
    state.plain = true ↔ quoteOf state = none ∧ behindBackslash state = false := by
  cases state <;> simp [ShlexState.plain, quoteOf, behindBackslash]

theorem quoteMark_char {c : CodePoint} {mark : Quote} :
    isChar c mark.char = true ↔ quoteMark c = some mark := by
  rw [quoteMark]
  cases mark with
  | single =>
    by_cases hsingle : isChar c '\''
    · simp [Quote.char, hsingle]
    · simp [Quote.char, hsingle]
  | double =>
    by_cases hsingle : isChar c '\''
    · have hdouble := isChar_ne (b := '"') (by decide) hsingle
      simp [Quote.char, hsingle, hdouble]
    · simp [Quote.char, hsingle]

theorem backslash_no_quote {c : CodePoint} (h : isChar c '\\') : quoteMark c = none := by
  have hsingle := isChar_ne (b := '\'') (by decide) h
  have hdouble := isChar_ne (b := '"') (by decide) h
  simp [quoteMark, hsingle, hdouble]

/-- Any other character has no part in quoting. -/
theorem ordinary_char {c : CodePoint} {a : Char} (h : isChar c a) (hbackslash : a ≠ '\\')
    (hsingle : a ≠ '\'') (hdouble : a ≠ '"') : ¬ isChar c '\\' ∧ quoteMark c = none := by
  have hnoBackslash := isChar_ne hbackslash h
  have hnoSingle := isChar_ne hsingle h
  have hnoDouble := isChar_ne hdouble h
  simp [quoteMark, hnoBackslash, hnoSingle, hnoDouble]

theorem blank_ordinary {c : CodePoint} (h : shlexBlank c) :
    ¬ isChar c '\\' ∧ quoteMark c = none := by
  simp only [shlexBlank, Bool.or_eq_true] at h
  rcases h with ((h | h) | h) | h
  · exact ordinary_char h (by decide) (by decide) (by decide)
  · exact ordinary_char h (by decide) (by decide) (by decide)
  · exact ordinary_char h (by decide) (by decide) (by decide)
  · exact ordinary_char h (by decide) (by decide) (by decide)

theorem unsupported_ordinary {c : CodePoint} {rest : PyStr} {message : String}
    (h : unsupported c rest = some message) : ¬ isChar c '\\' ∧ quoteMark c = none := by
  rw [unsupported] at h
  by_cases hshell : shellChar c
  · simp only [shellChar, Bool.or_eq_true] at hshell
    rcases hshell with (((h | h) | h) | h) | h
    · exact ordinary_char h (by decide) (by decide) (by decide)
    · exact ordinary_char h (by decide) (by decide) (by decide)
    · exact ordinary_char h (by decide) (by decide) (by decide)
    · exact ordinary_char h (by decide) (by decide) (by decide)
    · exact ordinary_char (a := Char.ofNat 96) h (by decide) (by decide) (by decide)
  · rw [if_neg hshell] at h
    by_cases hdollar : isChar c '$' ∧ rest.head?.any (isChar · '(')
    · exact ordinary_char hdollar.1 (by decide) (by decide) (by decide)
    · rw [if_neg hdollar] at h
      cases h

/-- Outside quotes, the next state is plain but behind a backslash or a quote. -/
theorem next_plain {state : ShlexState} (hplain : state.plain) {c : CodePoint} :
    (isChar c '\\' → state.next c = .escape none) ∧
    (∀ mark, quoteMark c = some mark → state.next c = .quote mark) ∧
    (¬ isChar c '\\' → quoteMark c = none → (state.next c).plain) := by
  have hnext : state.next c = ShlexState.next .word c := by
    cases state with
    | space => rfl
    | word => rfl
    | quote mark => cases hplain
    | escape back => cases hplain
  rw [hnext, ShlexState.next]
  by_cases hblank : shlexBlank c
  · obtain ⟨hbackslash, hmark⟩ := blank_ordinary hblank
    simp [hblank, hbackslash, hmark, ShlexState.plain]
  · by_cases hbackslash : isChar c '\\'
    · have hmark := backslash_no_quote hbackslash
      simp [hblank, hbackslash, hmark]
    · cases hmark : quoteMark c with
      | none => simp [hblank, hbackslash, ShlexState.plain]
      | some mark => simp [hblank, hbackslash]

theorem keep_ok {scan : CommandScan} {c : CodePoint} {rest : PyStr}
    (h : scan.quote = none → unsupported c rest = none) :
    scan.keep c rest = .ok { scan with current := scan.current ++ [c] } := by
  rw [CommandScan.keep]
  by_cases hquote : scan.quote = none
  · rw [if_pos hquote, h hquote]
  · rw [if_neg hquote]

/-- A character that ends no part is kept or refused; the accounts stay one. -/
theorem splitLoop_step {state : ShlexState} {scan : CommandScan} {c : CodePoint} {rest : PyStr}
    (h : Agrees state scan)
    (hcut : ¬ (state.plain ∧ isChar c '&' ∧ rest.head?.any (isChar · '&'))) :
    (state.plain = true ∧ (∃ message, unsupported c rest = some message) →
      ∃ message, splitLoop (c :: rest) scan = .error message) ∧
    (¬ (state.plain = true ∧ ∃ message, unsupported c rest = some message) →
      ∃ scan', splitLoop (c :: rest) scan = splitLoop rest scan' ∧ Agrees (state.next c) scan' ∧
        scan'.parts = scan.parts ∧ scan'.current = scan.current ++ [c]) := by
  obtain ⟨hquote, hescaped⟩ := h
  -- what the last branch of the loop does
  have hlast : scan.escaped = false → ¬ (isChar c '\\' ∧ scan.quote ≠ some .single) →
      quoteMark c = none → splitLoop (c :: rest) scan = scan.keep c rest >>= splitLoop rest := by
    intro hno hbackslash hmark
    rw [splitLoop.eq_def]
    simp only [hno, hmark]
    rw [if_neg (by decide), if_neg hbackslash]
    cases rest with
    | nil =>
      cases scan.keep c [] with
      | error message => rfl
      | ok scan' => rfl
    | cons d after =>
      refine if_neg ?_
      rintro ⟨hnone, hc, hd⟩
      exact hcut ⟨plain_iff.mpr ⟨hquote ▸ hnone, hescaped ▸ hno⟩, hc, hd⟩
  cases hplain : state.plain with
  | true =>
    obtain ⟨hnone, hout⟩ := plain_iff.mp hplain
    rw [hnone] at hquote
    rw [hout] at hescaped
    obtain ⟨hnextEscape, hnextQuote, hnextPlain⟩ := next_plain hplain (c := c)
    refine ⟨?_, fun hsupported => ?_⟩
    · rintro ⟨-, message, hm⟩
      obtain ⟨hbackslash, hmark⟩ := unsupported_ordinary hm
      refine ⟨message, ?_⟩
      rw [hlast hescaped (fun hb => hbackslash hb.1) hmark, CommandScan.keep, if_pos hquote, hm]
      rfl
    · by_cases hbackslash : isChar c '\\'
      · refine ⟨{ scan with current := scan.current ++ [c], escaped := true }, ?_, ?_, rfl, rfl⟩
        · rw [splitLoop.eq_def]
          simp [hescaped, hbackslash, hquote]
        · rw [hnextEscape hbackslash]
          exact ⟨hquote, rfl⟩
      · cases hmark : quoteMark c with
        | some mark =>
          refine ⟨{ scan with current := scan.current ++ [c], quote := some mark }, ?_, ?_, rfl, rfl⟩
          · rw [splitLoop.eq_def]
            simp [hescaped, hbackslash, hmark, hquote]
          · rw [hnextQuote mark hmark]
            exact ⟨rfl, hescaped⟩
        | none =>
          have hnext := plain_iff.mp (hnextPlain hbackslash hmark)
          have hsome : unsupported c rest = none := by
            cases hm : unsupported c rest with
            | none => rfl
            | some message => exact absurd ⟨rfl, message, hm⟩ hsupported
          refine ⟨{ scan with current := scan.current ++ [c] }, ?_, ?_, rfl, rfl⟩
          · rw [hlast hescaped (fun hb => hbackslash hb.1) hmark, keep_ok fun _ => hsome]
            rfl
          · exact ⟨hquote.trans hnext.1.symm, hescaped.trans hnext.2.symm⟩
  | false =>
    refine ⟨fun hrefused => (nomatch hrefused.1), fun _ => ?_⟩
    cases state with
    | space => cases hplain
    | word => cases hplain
    | escape back =>
      refine ⟨{ scan with current := scan.current ++ [c], escaped := false }, ?_, ?_, rfl, rfl⟩
      · rw [splitLoop.eq_def]
        simp only [hescaped, behindBackslash, if_true]
      · cases back with
        | none => exact ⟨hquote, rfl⟩
        | some mark => exact ⟨hquote, rfl⟩
    | quote mark =>
      have hquote : scan.quote = some mark := hquote
      have hescaped : scan.escaped = false := hescaped
      by_cases hclose : isChar c mark.char
      · have hmark := quoteMark_char.mp hclose
        have hbackslash : ¬ isChar c '\\' := by
          intro hb
          rw [backslash_no_quote hb] at hmark
          cases hmark
        refine ⟨{ scan with current := scan.current ++ [c], quote := none }, ?_, ?_, rfl, rfl⟩
        · rw [splitLoop.eq_def]
          simp [hescaped, hbackslash, hmark, hquote]
        · rw [ShlexState.next, if_pos hclose]
          exact ⟨rfl, hescaped⟩
      · by_cases hescape : isChar c '\\' ∧ mark = .double
        · refine ⟨{ scan with current := scan.current ++ [c], escaped := true }, ?_, ?_, rfl, rfl⟩
          · rw [splitLoop.eq_def]
            simp [hescaped, hquote, hescape]
          · rw [ShlexState.next, if_neg hclose, if_pos hescape]
            exact ⟨hquote, rfl⟩
        · have hbackslash : ¬ (isChar c '\\' ∧ scan.quote ≠ some .single) := by
            rintro ⟨hb, hne⟩
            refine hescape ⟨hb, ?_⟩
            cases mark with
            | single => exact absurd hquote hne
            | double => rfl
          have hnext : (ShlexState.quote mark).next c = .quote mark := by
            rw [ShlexState.next, if_neg hclose, if_neg hescape]
          refine ⟨{ scan with current := scan.current ++ [c] }, ?_, ?_, rfl, rfl⟩
          · cases hmark : quoteMark c with
            | none =>
              rw [hlast hescaped hbackslash hmark, keep_ok fun hnone => ?_]
              · rfl
              · rw [hquote] at hnone
                cases hnone
            | some other =>
              have hne : mark ≠ other := by
                rintro rfl
                exact hclose (quoteMark_char.mpr hmark)
              rw [splitLoop.eq_def]
              simp only [hescaped, hmark]
              rw [if_neg (by decide), if_neg hbackslash, hquote,
                if_neg fun heq => hne (Option.some.inj heq)]
              obtain ⟨parts, current, quote, escaped⟩ := scan
              cases hquote
              rfl
          · rw [hnext]
            exact ⟨hquote, hescaped⟩

/-- A cut: the part so far is closed. -/
theorem splitLoop_cut {state : ShlexState} {scan : CommandScan} {c d : CodePoint}
    (h : Agrees state scan) (hplain : state.plain) (hc : isChar c '&') (hd : isChar d '&')
    (rest : PyStr) :
    splitLoop (c :: d :: rest) scan =
      splitLoop rest { scan with parts := scan.parts ++ [pyStrip scan.current], current := [] } ∧
    (state.next c).plain = true ∧ ((state.next c).next d).plain = true := by
  obtain ⟨hquote, hescaped⟩ := h
  obtain ⟨hnone, hout⟩ := plain_iff.mp hplain
  rw [hnone] at hquote
  rw [hout] at hescaped
  have hordinary : ∀ {c : CodePoint}, isChar c '&' → ¬ isChar c '\\' ∧ quoteMark c = none :=
    fun hc => ordinary_char hc (by decide) (by decide) (by decide)
  have hfirst := (next_plain hplain).2.2 (hordinary hc).1 (hordinary hc).2
  have hsecond := (next_plain hfirst).2.2 (hordinary hd).1 (hordinary hd).2
  refine ⟨?_, hfirst, hsecond⟩
  rw [splitLoop.eq_def]
  simp [hescaped, hquote, (hordinary hc).1, (hordinary hc).2, hc, hd]

/-! ## 3. Every command -/

/-- What the loop gives: nothing where an operator is refused, else the parts of the command. -/
theorem splitLoop_spec (command : PyStr) {state : ShlexState} {scan : CommandScan}
    (h : Agrees state scan) :
    (Refused (marks state command) → ∃ message, splitLoop command scan = .error message) ∧
    (¬ Refused (marks state command) →
      ∃ scan', splitLoop command scan = .ok scan' ∧ Agrees (endState state command) scan' ∧
        scan'.parts ++ [pyStrip scan'.current] =
          scan.parts ++ (prepend scan.current (segments (marks state command))).map pyStrip) := by
  induction hlength : command.length using Nat.strong_induction_on generalizing command state scan
  next n ih =>
  cases command with
  | nil =>
    refine ⟨fun hrefused => absurd hrefused not_refused_nil, fun _ => ⟨scan, rfl, h, ?_⟩⟩
    simp [marks, segments, prepend]
  | cons c rest =>
    rw [List.length_cons] at hlength
    by_cases hcut : state.plain ∧ isChar c '&' ∧ rest.head?.any (isChar · '&')
    · obtain ⟨hplain, hc, hhead⟩ := hcut
      cases rest with
      | nil => cases hhead
      | cons d rest =>
        have hd : isChar d '&' := hhead
        rw [List.length_cons] at hlength
        obtain ⟨hloop, hfirst, hsecond⟩ := splitLoop_cut h hplain hc hd rest
        have hstate := plain_iff.mp hsecond
        have hold := plain_iff.mp hplain
        have hagrees : Agrees ((state.next c).next d)
            { scan with parts := scan.parts ++ [pyStrip scan.current], current := [] } :=
          ⟨h.quote.trans (hold.1.trans hstate.1.symm), h.escaped.trans (hold.2.trans hstate.2.symm)⟩
        obtain ⟨hrefuse, haccept⟩ := ih rest.length (by omega) rest hagrees rfl
        have hmarks : marks state (c :: d :: rest) =
            (c, true) :: (d, true) :: marks ((state.next c).next d) rest := by
          rw [marks, marks, hplain, hfirst]
        have hnoOperator : ∀ {c : CodePoint} {ms : List Marked}, isChar c '&' → ¬ Operator c ms := by
          rintro c ms hc (hshell | ⟨hdollar, -⟩)
          · rw [isChar_eq hc] at hshell
            cases hshell
          · exact isChar_ne (by decide) hc hdollar
        have hrefused : Refused (marks state (c :: d :: rest)) ↔
            Refused (marks ((state.next c).next d) rest) := by
          rw [hmarks, refused_cons, refused_cons]
          simp [hnoOperator hc, hnoOperator hd]
        have hsegments : segments (marks state (c :: d :: rest)) =
            [] :: segments (marks ((state.next c).next d) rest) := by
          rw [hmarks, segments, if_pos ⟨⟨rfl, hc⟩, rfl, hd⟩]
        rw [hrefused, hloop, hsegments]
        refine ⟨hrefuse, fun hnone => ?_⟩
        obtain ⟨scan', hrun, hend, hparts⟩ := haccept hnone
        refine ⟨scan', hrun, hend, ?_⟩
        rw [hparts]
        cases hrest : segments (marks ((state.next c).next d) rest) with
        | nil => exact absurd hrest (segments_ne_nil _)
        | cons part parts => simp [prepend]
    · obtain ⟨hrefuse, hkeep⟩ := splitLoop_step h hcut
      rw [marks, refused_cons, operator_iff]
      refine ⟨?_, fun hnone => ?_⟩
      · intro hrefused
        by_cases hnow : state.plain = true ∧ ∃ message, unsupported c rest = some message
        · exact hrefuse hnow
        · obtain ⟨scan', hloop, hagrees, -, -⟩ := hkeep hnow
          rw [hloop]
          exact (ih rest.length (by omega) rest hagrees rfl).1 (hrefused.resolve_left hnow)
      · obtain ⟨hnow, hlater⟩ := not_or.mp hnone
        obtain ⟨scan₁, hloop, hagrees, hparts₁, hcurrent₁⟩ := hkeep hnow
        obtain ⟨scan', hrun, hend, hparts⟩ := (ih rest.length (by omega) rest hagrees rfl).2 hlater
        refine ⟨scan', hloop.trans hrun, hend, ?_⟩
        have hsegments : segments ((c, state.plain) :: marks (state.next c) rest) =
            prepend [c] (segments (marks (state.next c) rest)) := by
          cases rest with
          | nil => rfl
          | cons d rest =>
            rw [marks, segments, if_neg]
            rintro ⟨⟨hplain, hc⟩, -, hd⟩
            exact hcut ⟨hplain, hc, hd⟩
        rw [hparts, hparts₁, hcurrent₁, hsegments, prepend_prepend (segments_ne_nil _)]

/-- What `_split_commands` accepts, and what it gives. -/
theorem splitCommands_ok {command : PyStr} {parts : List PyStr} :
    splitCommands command = .ok parts ↔
      ¬ Refused (marks .space command) ∧ (endState .space command).plain = true ∧
        parts = (segments (marks .space command)).map pyStrip ∧ [] ∉ parts := by
  have hstart : Agrees .space ⟨[], [], none, false⟩ := ⟨rfl, rfl⟩
  obtain ⟨hrefuse, haccept⟩ := splitLoop_spec command hstart
  rw [splitCommands, Except.bind_ok]
  have hfirst : prepend [] (segments (marks .space command)) = segments (marks .space command) := by
    cases hparts : segments (marks .space command) with
    | nil => exact absurd hparts (segments_ne_nil _)
    | cons part parts => rfl
  constructor
  · rintro ⟨scan, hrun, hrest⟩
    have hnone : ¬ Refused (marks .space command) := by
      intro hrefused
      obtain ⟨message, herror⟩ := hrefuse hrefused
      rw [herror] at hrun
      cases hrun
    obtain ⟨scan', hrun', hend, hparts⟩ := haccept hnone
    rw [hrun'] at hrun
    cases hrun
    obtain ⟨hclosed, hrest⟩ := Except.seq_ok.mp hrest
    obtain ⟨hempty, hpure⟩ := Except.seq_ok.mp hrest
    have hclosed := guardThat_ok.mp hclosed
    obtain rfl := Except.pure_ok.mp hpure
    refine ⟨hnone, plain_iff.mpr ⟨hend.quote ▸ hclosed.1, ?_⟩, ?_, guardThat_ok.mp hempty⟩
    · rw [← hend.escaped]
      exact Bool.eq_false_iff.mpr hclosed.2
    · rw [hparts, hfirst]
      rfl
  · rintro ⟨hnone, hclosed, rfl, hempty⟩
    obtain ⟨scan, hrun, hend, hparts⟩ := haccept hnone
    obtain ⟨hquote, hescape⟩ := plain_iff.mp hclosed
    have hparts : scan.parts ++ [pyStrip scan.current] =
        (segments (marks .space command)).map pyStrip := by
      rw [hparts, hfirst]
      rfl
    refine ⟨scan, hrun, Except.seq_ok.mpr ⟨guardThat_pass ⟨?_, ?_⟩, ?_⟩⟩
    · rw [hend.quote, hquote]
    · rw [hend.escaped, hescape]
      decide
    · refine Except.seq_ok.mpr ⟨guardThat_pass ?_, ?_⟩
      · rw [hparts]
        exact hempty
      · rw [hparts]
        rfl

/-! ## 4. Quoted commands -/

/-- Nothing in a text is an operator or could cut it. -/
def Quiet (state : ShlexState) (s : PyStr) : Prop :=
  ∀ m ∈ marks state s, m.2 = true →
    ¬ isChar m.1 '&' ∧ ¬ isChar m.1 '$' ∧ shellChar m.1 = false

theorem marks_append (state : ShlexState) (s t : PyStr) :
    marks state (s ++ t) = marks state s ++ marks (endState state s) t := by
  induction s generalizing state with
  | nil => rfl
  | cons c s ih =>
    rw [List.cons_append, marks, marks, List.cons_append, ih]
    rfl

theorem endState_append (state : ShlexState) (s t : PyStr) :
    endState state (s ++ t) = endState (endState state s) t := List.foldl_append

theorem quiet_append {state : ShlexState} {s t : PyStr} (hs : Quiet state s)
    (ht : Quiet (endState state s) t) : Quiet state (s ++ t) := by
  intro m hm
  rw [marks_append] at hm
  rcases List.mem_append.mp hm with hm | hm
  · exact hs m hm
  · exact ht m hm

/-- A quiet text goes to the part that the scanner is at. -/
theorem splitLoop_quiet {state : ShlexState} {scan : CommandScan} {s : PyStr}
    (h : Agrees state scan) (hquiet : Quiet state s) (rest : PyStr) :
    ∃ scan', splitLoop (s ++ rest) scan = splitLoop rest scan' ∧ Agrees (endState state s) scan' ∧
      scan'.parts = scan.parts ∧ scan'.current = scan.current ++ s := by
  induction s generalizing state scan with
  | nil => exact ⟨scan, rfl, h, rfl, (List.append_nil _).symm⟩
  | cons c s ih =>
    have hc := hquiet (c, state.plain) List.mem_cons_self
    have hcut : ¬ (state.plain ∧ isChar c '&' ∧ (s ++ rest).head?.any (isChar · '&')) :=
      fun hcut => (hc hcut.1).1 hcut.2.1
    have hsupported : ¬ (state.plain = true ∧ ∃ message, unsupported c (s ++ rest) = some message) := by
      rintro ⟨hplain, message, hm⟩
      obtain ⟨-, hdollar, hshell⟩ := hc hplain
      rw [unsupported, hshell, if_neg (by decide), if_neg fun hd => hdollar hd.1] at hm
      cases hm
    obtain ⟨scan₁, hloop, hagrees, hparts₁, hcurrent₁⟩ := (splitLoop_step h hcut).2 hsupported
    obtain ⟨scan', hrun, hend, hparts, hcurrent⟩ :=
      ih hagrees fun m hm => hquiet m (List.mem_cons_of_mem _ hm)
    refine ⟨scan', hloop.trans hrun, hend, hparts.trans hparts₁, ?_⟩
    rw [hcurrent, hcurrent₁, List.append_assoc]
    rfl

/-- Safe characters are quiet, and what follows them is outside quotes. -/
theorem quiet_safe {state : ShlexState} {s : PyStr} (hplain : state.plain) (h : s.all shlexSafe) :
    Quiet state s ∧ (endState state s).plain = true := by
  induction s generalizing state with
  | nil => exact ⟨fun m hm => (nomatch hm), hplain⟩
  | cons c s ih =>
    obtain ⟨hc, hrest⟩ := Bool.and_eq_true_iff.mp (List.all_cons.symm.trans h)
    obtain ⟨-, hbackslash, hmark⟩ := safe_word hc
    have hnext := (next_plain hplain).2.2 (Bool.eq_false_iff.mp hbackslash) hmark
    obtain ⟨hquiet, hend⟩ := ih hnext hrest
    refine ⟨fun m hm => ?_, hend⟩
    rcases List.mem_cons.mp hm with rfl | hm
    · intro _
      have hamp := safe_ne (a := '&') (by decide) hc
      have hdollar := safe_ne (a := '$') (by decide) hc
      have hsemicolon := safe_ne (a := ';') (by decide) hc
      have hbar := safe_ne (a := '|') (by decide) hc
      have hgreater := safe_ne (a := '>') (by decide) hc
      have hless := safe_ne (a := '<') (by decide) hc
      have hbacktick : decide (c.val = 96) = false := safe_ne (a := Char.ofNat 96) (by decide) hc
      simp [hamp, hdollar, shellChar, hsemicolon, hbar, hgreater, hless] at hbacktick ⊢
      exact hbacktick
    · exact hquiet m hm

/-- So is what stands between single quotes. -/
theorem quiet_quoted (s : PyStr) :
    Quiet (.quote .single) (s.flatMap quotedChar) ∧
      endState (.quote .single) (s.flatMap quotedChar) = .quote .single := by
  induction s with
  | nil => exact ⟨fun m hm => (nomatch hm), rfl⟩
  | cons c s ih =>
    have hone : Quiet (.quote .single) (quotedChar c) ∧
        endState (.quote .single) (quotedChar c) = .quote .single := by
      rw [quotedChar]
      by_cases hc : isChar c '\''
      · rw [if_pos hc]
        have hall : (marks (.quote .single) (pyStr "'\"'\"'")).all fun m =>
            !m.2 || (!isChar m.1 '&' && !isChar m.1 '$' && !shellChar m.1) := by decide
        refine ⟨fun m hm hplain => ?_, by decide⟩
        have hquiet := List.all_eq_true.mp hall m hm
        simp only [hplain, Bool.not_true, Bool.false_or, Bool.and_eq_true, Bool.not_eq_true'] at hquiet
        simp [hquiet]
      · rw [if_neg hc]
        refine ⟨fun m hm hplain => ?_, ?_⟩
        · rw [List.mem_singleton.mp hm] at hplain
          cases hplain
        · show ShlexState.next (.quote .single) c = .quote .single
          simp [ShlexState.next, Quote.char, hc]
    rw [List.flatMap_cons, endState_append, hone.2]
    exact ⟨quiet_append hone.1 (hone.2.symm ▸ ih.1), ih.2⟩

theorem quiet_one {state : ShlexState} {c : CodePoint} {a : Char} (hc : isChar c a)
    (hamp : a ≠ '&') (hdollar : a ≠ '$') (hshell : shellChar c = false) :
    Quiet state [c] := by
  intro m hm _
  rw [List.mem_singleton.mp hm]
  exact ⟨isChar_ne hamp hc, isChar_ne hdollar hc, hshell⟩

theorem quiet_quote {state : ShlexState} (hplain : state.plain) (s : PyStr) :
    Quiet state (shlexQuote s) ∧ (endState state (shlexQuote s)).plain = true := by
  have hmark : Quiet state (pyStr "'") := quiet_one (a := '\'') rfl (by decide) (by decide) rfl
  have hopen : endState state (pyStr "'") = .quote .single :=
    (next_plain hplain (c := 39)).2.1 .single rfl
  have hclosing : Quiet (.quote .single) (pyStr "'") := by
    intro m hm hplain
    rw [List.mem_singleton.mp hm] at hplain
    cases hplain
  have hclose : endState (.quote .single) (pyStr "'") = .word := rfl
  rw [shlexQuote]
  by_cases hempty : s = []
  · rw [if_pos hempty]
    have htwo : pyStr "''" = pyStr "'" ++ pyStr "'" := rfl
    rw [htwo, endState_append, hopen]
    exact ⟨quiet_append hmark (hopen.symm ▸ hclosing), rfl⟩
  · rw [if_neg hempty]
    by_cases hsafe : s.all shlexSafe
    · rw [if_pos hsafe]
      exact quiet_safe hplain hsafe
    · rw [if_neg hsafe, List.append_assoc, endState_append, hopen, endState_append,
        (quiet_quoted s).2, hclose]
      refine ⟨quiet_append hmark ?_, rfl⟩
      rw [hopen]
      refine quiet_append (quiet_quoted s).1 ?_
      rw [(quiet_quoted s).2]
      exact hclosing

theorem quiet_blank {state : ShlexState} (hplain : state.plain) :
    Quiet state (pyStr " ") ∧ (endState state (pyStr " ")).plain = true :=
  ⟨quiet_one (a := ' ') rfl (by decide) (by decide) rfl,
    (next_plain hplain (c := 32)).2.2 (by decide) rfl⟩

theorem quiet_commandText {state : ShlexState} (hplain : state.plain) (first : PyStr)
    (more : List PyStr) : Quiet state (commandText (first :: more)) ∧
      (endState state (commandText (first :: more))).plain = true := by
  induction more generalizing state first with
  | nil =>
    rw [commandText_one]
    exact quiet_quote hplain first
  | cons next more ih =>
    obtain ⟨hquote, hend⟩ := quiet_quote hplain first
    obtain ⟨hblank, hafter⟩ := quiet_blank hend
    obtain ⟨hmore, hlast⟩ := ih hafter next
    rw [commandText_cons, endState_append, endState_append]
    exact ⟨quiet_append hquote (quiet_append hblank hmore), hlast⟩

/-- The arguments of one command. -/
structure ArgVector where
  executable : PyStr
  arguments : List PyStr

def ArgVector.values (vector : ArgVector) : List PyStr := vector.executable :: vector.arguments

/-- The commands, their arguments quoted, with `&&` between them. -/
def render (commands : List ArgVector) : PyStr :=
  (pyStr " && ").intercalate (commands.map fun vector => commandText vector.values)

theorem render_cons (first next : ArgVector) (more : List ArgVector) :
    render (first :: next :: more) =
      (commandText first.values ++ pyStr " ") ++ 38 :: 38 :: (pyStr " " ++ render (next :: more)) := by
  simp [render, List.intercalate, pyStr, pyText]

/-- The scanner cuts between the commands, and nowhere else. -/
theorem splitLoop_render (first : ArgVector) (more : List ArgVector) {state : ShlexState}
    {scan : CommandScan} (hplain : state.plain) (h : Agrees state scan)
    (hlead : scan.current.all pySpace) :
    ∃ scan' state', splitLoop (render (first :: more)) scan = .ok scan' ∧
      state'.plain = true ∧ Agrees state' scan' ∧
      scan'.parts ++ [pyStrip scan'.current] =
        scan.parts ++ (first :: more).map fun vector => commandText vector.values := by
  induction more generalizing first state scan with
  | nil =>
    obtain ⟨hquiet, hend⟩ := quiet_commandText hplain first.executable first.arguments
    obtain ⟨scan', hloop, hagrees, hparts, hcurrent⟩ := splitLoop_quiet h hquiet []
    refine ⟨scan', _, ?_, hend, hagrees, ?_⟩
    · have hone : render [first] = commandText first.values ++ [] := by
        simp [render, List.intercalate]
      rw [hone]
      exact hloop
    · have htrail : ([] : PyStr).all pySpace := rfl
      have hstrip := pyStrip_padded hlead (trimmed_commandText first.executable first.arguments)
        htrail
      rw [List.append_nil] at hstrip
      rw [hparts, hcurrent, hstrip]
      rfl
  | cons next more ih =>
    obtain ⟨hquiet, hend⟩ := quiet_commandText hplain first.executable first.arguments
    obtain ⟨hblank, hafter⟩ := quiet_blank hend
    obtain ⟨scan₁, hloop₁, hagrees₁, hparts₁, hcurrent₁⟩ :=
      splitLoop_quiet h (quiet_append hquiet hblank) (38 :: 38 :: (pyStr " " ++ render (next :: more)))
    rw [endState_append] at hagrees₁
    obtain ⟨hcut, -, hsecond⟩ := splitLoop_cut hagrees₁ hafter (c := 38) (d := 38) rfl rfl
      (pyStr " " ++ render (next :: more))
    have hstate := plain_iff.mp hsecond
    have hbefore := plain_iff.mp hafter
    obtain ⟨hblank₂, hafter₂⟩ := quiet_blank hsecond
    have hbegin : Agrees _
        { scan₁ with parts := scan₁.parts ++ [pyStrip scan₁.current], current := [] } :=
      ⟨hagrees₁.quote.trans (hbefore.1.trans hstate.1.symm),
        hagrees₁.escaped.trans (hbefore.2.trans hstate.2.symm)⟩
    obtain ⟨scan₂, hloop₂, hagrees₂, hparts₂, hcurrent₂⟩ :=
      splitLoop_quiet hbegin hblank₂ (render (next :: more))
    have hlead₂ : scan₂.current.all pySpace := by
      rw [hcurrent₂]
      rfl
    obtain ⟨scan', state', hrun, hstate', hagrees', hparts⟩ := ih next hafter₂ hagrees₂ hlead₂
    refine ⟨scan', state', ?_, hstate', hagrees', ?_⟩
    · rw [render_cons]
      exact hloop₁.trans (hcut.trans (hloop₂.trans hrun))
    · have htrail : (pyStr " ").all pySpace := rfl
      have hstrip := pyStrip_padded hlead (trimmed_commandText first.executable first.arguments)
        htrail
      rw [List.append_assoc] at hstrip
      have hpart : pyStrip scan₁.current = commandText first.values := by
        rw [hcurrent₁]
        exact hstrip
      rw [hparts, hparts₂, hparts₁, hpart, List.append_assoc]
      rfl

/-- Quoted arguments come back as they were, but for the executable that is found. -/
theorem argv_render (which : PyStr → Option PyStr) (first : ArgVector) (more : List ArgVector) :
    argv which (render (first :: more)) =
      .ok ((first :: more).map fun vector => located which vector.values) := by
  have hstart : Agrees .space ⟨[], [], none, false⟩ := ⟨rfl, rfl⟩
  obtain ⟨scan, state, hrun, hplain, hagrees, hparts⟩ :=
    splitLoop_render first more (by rfl) hstart rfl
  obtain ⟨hquote, hescaped⟩ := plain_iff.mp hplain
  have hparts : scan.parts ++ [pyStrip scan.current] =
      (first :: more).map fun vector => commandText vector.values := hparts
  have hnonempty : [] ∉ (first :: more).map fun vector => commandText vector.values := by
    intro hmem
    obtain ⟨vector, -, hempty⟩ := List.mem_map.mp hmem
    exact (trimmed_commandText vector.executable vector.arguments).nonempty hempty
  have hsplit : splitCommands (render (first :: more)) =
      .ok ((first :: more).map fun vector => commandText vector.values) := by
    rw [splitCommands, hrun]
    refine Except.seq_ok.mpr ⟨guardThat_pass ⟨hagrees.quote.trans hquote, ?_⟩, ?_⟩
    · rw [hagrees.escaped, hescaped]
      decide
    · rw [hparts]
      exact Except.seq_ok.mpr ⟨guardThat_pass hnonempty, rfl⟩
  rw [argv, hsplit, Except.ok_bind, List.mapM_ok, List.forall₂_map_left_iff,
    List.forall₂_map_right_iff, List.forall₂_same]
  intro vector _
  have hread : shlexSplit (commandText vector.values) = .ok vector.values :=
    shlexSplit_quoted (List.cons_ne_nil _ _)
  rw [hread, Except.ok_bind]
  exact Except.seq_ok.mpr ⟨guardThat_pass (List.cons_ne_nil _ _), rfl⟩

/-- Quoted commands come back as they were; and of every command string, what stands outside
quotes and unescaped, and nothing else, cuts it or is refused. -/
theorem commands_split :
    (∀ first more, argv (fun _ => none) (render (first :: more)) =
      .ok ((first :: more).map ArgVector.values)) ∧
    (∀ which first more, argv which (render (first :: more)) =
      .ok ((first :: more).map fun vector => located which vector.values)) ∧
    (∀ command, Refused (marks .space command) →
      ∃ message, splitCommands command = .error message) ∧
    ∀ command parts, splitCommands command = .ok parts ↔
      ¬ Refused (marks .space command) ∧ (endState .space command).plain = true ∧
        parts = (segments (marks .space command)).map pyStrip ∧ [] ∉ parts := by
  refine ⟨fun first more => argv_render _ first more, argv_render, fun command hrefused => ?_,
    fun command parts => splitCommands_ok⟩
  cases hsplit : splitCommands command with
  | error message => exact ⟨message, rfl⟩
  | ok parts => exact absurd hrefused (splitCommands_ok.mp hsplit).1

end Toolchain

end NokincFactory
