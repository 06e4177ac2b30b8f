/-
  File:      NokincFactory/Domain/CompactJson.lean
  Subject:   `json.dumps(value, ensure_ascii=False, separators=(",", ":"))`, read back by `loads`.

  A float is its text, that of an infinite one included.

  * `quoteText`, `Loaded.compact`: the text of a value, members in their order;
  * `Loaded.sorted`, `Loaded.printable`: with `sort_keys`, and where there is a text;
  * `encodable_quoteText`: what is written has an encoding where its strings have one;
  * `scanString_quoteText`, `scanNumber_int`: a string and an integer are read back;
  * `Readable`: the values that a scan with some levels of the stack reads back;
  * `scanOnce_compact`, `loads_compact`: and so it does;
  * `compact_injective`: one text, one value.
-/
import NokincFactory.Domain.JsonScanner

namespace NokincFactory

/-! ## 1. Writing -/

/-- One character of a string literal, as `ensure_ascii=False` writes it. -/
def escapeText (c : CodePoint) : PyStr :=
  if c.val = 34 then pyStr "\\\""
  else if c.val = 92 then pyStr "\\\\"
  else if c.val = 10 then pyStr "\\n"
  else if c.val = 13 then pyStr "\\r"
  else if c.val = 9 then pyStr "\\t"
  else if c.val = 12 then pyStr "\\f"
  else if c.val = 8 then pyStr "\\b"
  else if c.val < 32 then
    pyText ['\\', 'u', '0', '0', Json.hexDigit (c.val / 16), Json.hexDigit (c.val % 16)]
  else [c]

def quoteText (s : PyStr) : PyStr := pyStr "\"" ++ s.flatMap escapeText ++ pyStr "\""

namespace Loaded

mutual
/-- The text of a value. -/
def compact : Loaded → PyStr
  | none => pyStr "null"
  | bool true => pyStr "true"
  | bool false => pyStr "false"
  | int n => pyText (Json.intText n)
  | float repr => repr
  | str s => quoteText s
  | list [] => pyStr "[]"
  | list (v :: vs) => pyStr "[" ++ compact v ++ compactItems vs
  | dict [] => pyStr "\x7b\x7d"
  | dict ((k, v) :: ms) =>
    pyStr "\x7b" ++ quoteText k ++ pyStr ":" ++ compact v ++ compactMembers ms

/-- The items after the first one, and the closing bracket. -/
def compactItems : List Loaded → PyStr
  | [] => pyStr "]"
  | v :: vs => pyStr "," ++ compact v ++ compactItems vs

def compactMembers : List (PyStr × Loaded) → PyStr
  | [] => pyStr "\x7d"
  | (k, v) :: ms => pyStr "," ++ quoteText k ++ pyStr ":" ++ compact v ++ compactMembers ms
end

mutual
/-- The members of every dict in key order (`sort_keys`). -/
def sorted : Loaded → Loaded
  | list items => list (sortedItems items)
  | dict members => dict ((sortedMembers members).insertionSort PyValue.keyLe)
  | none => none
  | bool b => bool b
  | int n => int n
  | float repr => float repr
  | str s => str s

def sortedItems : List Loaded → List Loaded
  | [] => []
  | v :: vs => sorted v :: sortedItems vs

def sortedMembers : List (PyStr × Loaded) → List (PyStr × Loaded)
  | [] => []
  | (k, v) :: ms => (k, sorted v) :: sortedMembers ms
end

mutual
/-- Every integer has few enough digits to be written. -/
def printable : Loaded → Bool
  | int n => (Nat.toDigits 10 n.natAbs).length ≤ PyValue.maxStrDigits
  | list items => printableItems items
  | dict members => printableMembers members
  | none | bool _ | float _ | str _ => true

def printableItems : List Loaded → Bool
  | [] => true
  | v :: vs => printable v && printableItems vs

def printableMembers : List (PyStr × Loaded) → Bool
  | [] => true
  | (_, v) :: ms => printable v && printableMembers ms
end

end Loaded

theorem encodable_escapeText (c : CodePoint) : encodable (escapeText c) = encodable [c] := by
  have hsmall : c.val < 0xd800 → encodable [c] = true := fun h => by simp [encodable, h]
  rw [escapeText]
  by_cases h34 : c.val = 34
  · rw [if_pos h34, hsmall (by omega)]
    rfl
  by_cases h92 : c.val = 92
  · rw [if_neg h34, if_pos h92, hsmall (by omega)]
    rfl
  by_cases hcontrol : c.val < 32
  · rw [if_neg h34, if_neg h92, hsmall (by omega), if_pos hcontrol]
    split
    · rfl
    split
    · rfl
    split
    · rfl
    split
    · rfl
    split
    · rfl
    exact encodable_pyText _
  · rw [if_neg h34, if_neg h92, if_neg (by omega), if_neg (by omega), if_neg (by omega),
      if_neg (by omega), if_neg (by omega), if_neg hcontrol]

theorem encodable_quoteText (s : PyStr) : encodable (quoteText s) = encodable s := by
  have hbody : encodable (s.flatMap escapeText) = encodable s := by
    induction s with
    | nil => rfl
    | cons c s ih =>
      rw [List.flatMap_cons, encodable_append, ih, encodable_escapeText, ← encodable_append]
      rfl
  have hmark : encodable (pyStr "\"") = true := rfl
  rw [quoteText, encodable_append, encodable_append, hbody, hmark, Bool.true_and, Bool.and_true]

/-! ## 2. Strings are read back -/

/-- Whether a character is written as `\u`. -/
def flagged (c : CodePoint) : Bool :=
  c.val < 32 && c.val ≠ 8 && c.val ≠ 9 && c.val ≠ 10 && c.val ≠ 12 && c.val ≠ 13

theorem map_push {c : Scanned} {x : Except LoadError (List Scanned × PyStr)}
    {read : List Scanned × PyStr} (h : x = .ok read) : x.map (push c) = .ok (push c read) := by
  rw [h]
  rfl

theorem hexUnit_control : ∀ n < 32, hexUnit 48 48
    (Fin.ofNat _ (Json.hexDigit (n / 16)).toNat) (Fin.ofNat _ (Json.hexDigit (n % 16)).toNat) =
      some (Fin.ofNat _ n) := by decide

theorem pyText_char (c : Char) : (⟨c.toNat, toNat_codePoint c⟩ : CodePoint) = Fin.ofNat _ c.toNat :=
  Fin.ext (Nat.mod_eq_of_lt (toNat_codePoint c)).symm

/-- One character, as it was written. -/
theorem scanBody_escape (c : CodePoint) {rest : PyStr} {read : List Scanned × PyStr}
    (h : scanBody rest = .ok read) :
    scanBody (escapeText c ++ rest) = .ok (push (c, flagged c) read) := by
  have hspecial : ∀ {n : ℕ} (hn : n < 0x110000) {written : PyStr}, c.val = n →
      scanBody (written ++ rest) = (scanBody rest).map (push (⟨n, hn⟩, false)) →
      flagged ⟨n, hn⟩ = false →
      scanBody (written ++ rest) = .ok (push (c, flagged c) read) := by
    intro n hn written hc hscan hflag
    obtain rfl : c = ⟨n, hn⟩ := Fin.ext hc
    rw [hscan, hflag]
    exact map_push h
  rw [escapeText]
  by_cases h34 : c.val = 34
  · rw [if_pos h34]
    exact hspecial (by decide) h34 (by rw [scanBody.eq_def]; rfl) rfl
  by_cases h92 : c.val = 92
  · rw [if_neg h34, if_pos h92]
    exact hspecial (by decide) h92 (by rw [scanBody.eq_def]; rfl) rfl
  by_cases h10 : c.val = 10
  · rw [if_neg h34, if_neg h92, if_pos h10]
    exact hspecial (by decide) h10 (by rw [scanBody.eq_def]; rfl) rfl
  by_cases h13 : c.val = 13
  · rw [if_neg h34, if_neg h92, if_neg h10, if_pos h13]
    exact hspecial (by decide) h13 (by rw [scanBody.eq_def]; rfl) rfl
  by_cases h9 : c.val = 9
  · rw [if_neg h34, if_neg h92, if_neg h10, if_neg h13, if_pos h9]
    exact hspecial (by decide) h9 (by rw [scanBody.eq_def]; rfl) rfl
  by_cases h12 : c.val = 12
  · rw [if_neg h34, if_neg h92, if_neg h10, if_neg h13, if_neg h9, if_pos h12]
    exact hspecial (by decide) h12 (by rw [scanBody.eq_def]; rfl) rfl
  by_cases h8 : c.val = 8
  · rw [if_neg h34, if_neg h92, if_neg h10, if_neg h13, if_neg h9, if_neg h12, if_pos h8]
    exact hspecial (by decide) h8 (by rw [scanBody.eq_def]; rfl) rfl
  rw [if_neg h34, if_neg h92, if_neg h10, if_neg h13, if_neg h9, if_neg h12, if_neg h8]
  by_cases hcontrol : c.val < 32
  · have hflag : flagged c = true := by simp [flagged, hcontrol, h8, h9, h10, h12, h13]
    have hunit := hexUnit_control c.val hcontrol
    have hself : (Fin.ofNat 0x110000 c.val) = c := Fin.ext (Nat.mod_eq_of_lt c.isLt)
    rw [hself] at hunit
    rw [if_pos hcontrol, hflag]
    have hwritten : pyText ['\\', 'u', '0', '0', Json.hexDigit (c.val / 16),
        Json.hexDigit (c.val % 16)] ++ rest = 92 :: 117 :: 48 :: 48 ::
          Fin.ofNat _ (Json.hexDigit (c.val / 16)).toNat ::
          Fin.ofNat _ (Json.hexDigit (c.val % 16)).toNat :: rest := by
      simp only [pyText, List.map_cons, List.map_nil, pyText_char]
      rfl
    rw [hwritten, scanBody.eq_def]
    simp only [hunit]
    exact map_push h
  · have hflag : flagged c = false := by simp [flagged, hcontrol]
    have hquote : ¬ isChar c '"' := fun hc => h34 (of_decide_eq_true hc)
    have hbackslash : ¬ isChar c '\\' := fun hc => h92 (of_decide_eq_true hc)
    rw [if_neg hcontrol, hflag, List.singleton_append, scanBody.eq_def]
    simp only
    rw [if_neg hquote, if_neg hbackslash, if_neg hcontrol]
    exact map_push h

theorem joinPairs_flagged (s : PyStr) : joinPairs (s.map fun c => (c, flagged c)) = s := by
  induction s with
  | nil => rfl
  | cons c s ih =>
    cases s with
    | nil => rfl
    | cons d s =>
      rw [List.map_cons, List.map_cons, joinPairs, if_neg,
        ← List.map_cons (f := fun c => (c, flagged c)), ih]
      rintro ⟨hflag, -, ⟨hhigh, -⟩, -⟩
      have hhigh : 0xd800 ≤ c.val := hhigh
      simp only [flagged, Bool.and_eq_true, decide_eq_true_eq] at hflag
      omega

/-- A string is read back. -/
theorem scanString_quoteText (s rest : PyStr) :
    scanString (s.flatMap escapeText ++ (pyStr "\"" ++ rest)) = .ok (s, rest) := by
  have hbody : scanBody (s.flatMap escapeText ++ (pyStr "\"" ++ rest)) =
      .ok (s.map fun c => (c, flagged c), rest) := by
    induction s with
    | nil =>
      rw [scanBody.eq_def]
      rfl
    | cons c s ih =>
      rw [List.flatMap_cons, List.append_assoc]
      exact scanBody_escape c ih
  rw [scanString, hbody]
  show Except.ok (joinPairs (s.map fun c => (c, flagged c)), rest) = _
  rw [joinPairs_flagged]

/-! ## 3. Integers are read back -/

/-- What may follow a value: nothing, or a character of no value. -/
def Ends : PyStr → Prop
  | [] => True
  | c :: _ => isChar c ',' ∨ isChar c ']' ∨ isChar c '\x7d'

theorem Ends.ordinary {c : CodePoint} {rest : PyStr} (h : Ends (c :: rest)) :
    isDigit c = false ∧ isBlank c = false ∧ ¬ isChar c '.' ∧ ¬ isChar c 'e' ∧ ¬ isChar c 'E' := by
  rcases h with h | h | h
  · rw [isChar_eq h]
    decide
  · rw [isChar_eq h]
    decide
  · rw [isChar_eq h]
    decide

theorem head_toDigits {n : ℕ} (h : 0 < n) : (Nat.toDigits 10 n).head? ≠ some '0' := by
  induction n using Nat.strong_induction_on with
  | _ n ih =>
    by_cases hlt : n < 10
    · rw [Nat.toDigits_of_lt_base hlt]
      intro hzero
      have hzero : Nat.digitChar n = '0' := Option.some.inj hzero
      rw [Nat.digitChar_eq_zero] at hzero
      omega
    · rw [Nat.toDigits_of_base_le (by decide) (by omega),
        List.head?_append_of_ne_nil _ Nat.toDigits_ne_nil]
      exact ih (n / 10) (by omega) (by omega)

theorem isDigit_pyText {cs : List Char} (h : ∀ c ∈ cs, c.isDigit = true) :
    ∀ c ∈ pyText cs, isDigit c = true := by
  intro d hd
  obtain ⟨c, hc, rfl⟩ := List.mem_map.mp hd
  have hdigit := h c hc
  rw [Char.isDigit, Bool.and_eq_true, decide_eq_true_eq, decide_eq_true_eq] at hdigit
  have hlow : 48 ≤ c.toNat := hdigit.1
  have hhigh : c.toNat ≤ 57 := hdigit.2
  simp [isDigit, hlow, hhigh]

theorem isDigit_toDigits (n : ℕ) : ∀ c ∈ pyText (Nat.toDigits 10 n), isDigit c = true :=
  isDigit_pyText fun _ hc => Nat.isDigit_of_mem_toDigits (by decide) (by decide) hc

theorem takeWhile_digits {digits rest : PyStr} (h : ∀ c ∈ digits, isDigit c = true)
    (hrest : Ends rest) : (digits ++ rest).takeWhile isDigit = digits := by
  rw [List.takeWhile_append_of_pos h]
  cases rest with
  | nil => exact List.append_nil _
  | cons c rest =>
    rw [List.takeWhile_cons_of_neg (by simp [hrest.ordinary.1])]
    exact List.append_nil _

theorem spelled_toDigits (n : ℕ) : spelled (pyText (Nat.toDigits 10 n)) = n := by
  rw [spelled, pyText, List.foldl_map]
  exact Nat.ofDigitChars_ten_toDigits

/-- Decimal digits are an integer. -/
theorem integer_toDigits (n : ℕ) {rest : PyStr} (hrest : Ends rest) :
    integer (pyText (Nat.toDigits 10 n) ++ rest) = pyText (Nat.toDigits 10 n) := by
  have hall := isDigit_toDigits n
  rcases Nat.eq_zero_or_pos n with rfl | hpos
  · rfl
  · have hhead := head_toDigits hpos
    cases hdigits : Nat.toDigits 10 n with
    | nil => exact absurd hdigits Nat.toDigits_ne_nil
    | cons c cs =>
      rw [hdigits] at hhead hall
      have hzero : ¬ isChar (⟨c.toNat, toNat_codePoint c⟩ : CodePoint) '0' := by
        intro h
        have hc : c = '0' := Char.toNat_inj.mp (of_decide_eq_true h)
        exact hhead (by rw [hc]; rfl)
      have hfirst := hall _ List.mem_cons_self
      rw [pyText, List.map_cons, List.cons_append, integer, if_neg hzero, if_pos hfirst]
      exact congrArg _ (takeWhile_digits (fun d hd => hall d (List.mem_cons_of_mem _ hd)) hrest)

theorem no_fraction {rest : PyStr} (h : Ends rest) : fraction rest = [] := by
  cases rest with
  | nil => rfl
  | cons c rest => exact if_neg fun hdot => h.ordinary.2.2.1 hdot.1

theorem no_exponent {rest : PyStr} (h : Ends rest) : exponent rest = [] := by
  cases rest with
  | nil => rfl
  | cons c rest =>
    obtain ⟨-, -, -, hsmall, hcapital⟩ := h.ordinary
    refine if_neg ?_
    rintro ⟨hletter | hletter, -⟩
    · exact hsmall hletter
    · exact hcapital hletter

/-- An integer is read back. -/
theorem scanNumber_int {n : ℤ} (hn : (Nat.toDigits 10 n.natAbs).length ≤ PyValue.maxStrDigits)
    {rest : PyStr} (hrest : Ends rest) :
    scanNumber (pyText (Json.intText n) ++ rest) = .ok (.int n, rest) := by
  have hlength : ∀ m : ℕ, (pyText (Nat.toDigits 10 m)).length = (Nat.toDigits 10 m).length :=
    fun m => List.length_map _
  have hne : ∀ m : ℕ, pyText (Nat.toDigits 10 m) ≠ [] := fun m h =>
    Nat.toDigits_ne_nil (List.map_eq_nil_iff.mp h)
  have hscan : ∀ (m : ℕ) (sign : PyStr),
      ((sign ++ (pyText (Nat.toDigits 10 m) ++ rest)).take 1).filter (isChar · '-') = sign →
      (Nat.toDigits 10 m).length ≤ PyValue.maxStrDigits →
      scanNumber (sign ++ (pyText (Nat.toDigits 10 m) ++ rest)) =
        .ok (.int (if sign = [] then m else -m), rest) := by
    intro m sign hsign hdigits
    rw [scanNumber]
    simp only [hsign, List.drop_left, integer_toDigits m hrest]
    rw [← List.drop_drop, List.drop_left, List.drop_left]
    simp only [no_fraction hrest, List.length_nil, List.drop_zero, no_exponent hrest, hlength,
      spelled_toDigits]
    rw [if_neg (hne m), if_pos ⟨trivial, trivial⟩, if_pos hdigits]
  cases n with
  | ofNat k =>
    refine (hscan k [] ?_ hn).trans ?_
    · cases hdigits : Nat.toDigits 10 k with
      | nil => exact absurd hdigits Nat.toDigits_ne_nil
      | cons c cs =>
        have hdigit := Nat.isDigit_of_mem_toDigits (b := 10) (n := k) (by decide) (by decide)
          (hdigits ▸ List.mem_cons_self : c ∈ Nat.toDigits 10 k)
        have hminus : isChar (⟨c.toNat, toNat_codePoint c⟩ : CodePoint) '-' = false := by
          rw [Bool.eq_false_iff]
          intro h
          have hc : c = '-' := Char.toNat_inj.mp (of_decide_eq_true h)
          rw [hc] at hdigit
          cases hdigit
        simp [pyText, hminus]
    · rw [if_pos rfl]
      rfl
  | negSucc k =>
    refine (hscan (k + 1) (pyStr "-") rfl hn).trans ?_
    rw [if_neg (by decide)]
    rfl

/-! ## 4. Lists are read back -/

/-- A text that starts with no blank, and not as a list ends. -/
def Starts (s : PyStr) : Prop :=
  ∃ c cs, s = c :: cs ∧ isBlank c = false ∧ ¬ isChar c ']' ∧ ¬ isChar c '\x7d'

theorem Starts.append {s : PyStr} (h : Starts s) (t : PyStr) : Starts (s ++ t) := by
  obtain ⟨c, cs, rfl, hc⟩ := h
  exact ⟨c, cs ++ t, rfl, hc⟩

theorem Starts.skipBlank_eq {s : PyStr} (h : Starts s) : skipBlank s = s := by
  obtain ⟨c, cs, rfl, hblank, -⟩ := h
  exact List.dropWhile_cons_of_neg (by simp [hblank])

/-- The elements after the first one, each after a comma, and the closing bracket. -/
def furtherText {α : Type} (text : α → PyStr) (close : Char) (values : List α) : PyStr :=
  values.flatMap (fun value => pyStr "," ++ text value) ++ [⟨close.toNat, toNat_codePoint close⟩]

theorem length_furtherText {α : Type} (text : α → PyStr) (close : Char) (values : List α) :
    values.length < (furtherText text close values).length := by
  have hflat : values.length ≤ (values.flatMap fun value => pyStr "," ++ text value).length := by
    induction values with
    | nil => exact Nat.le_refl _
    | cons value values ih =>
      rw [List.flatMap_cons, List.length_append, List.length_append, List.length_cons]
      have hcomma : (pyStr ",").length = 1 := rfl
      omega
  rw [furtherText, List.length_append, List.length_singleton]
  omega

theorem isChar_self (c : Char) : isChar ⟨c.toNat, toNat_codePoint c⟩ c = true := decide_eq_true rfl

section Written

variable {α : Type} {element : PyStr → Except LoadError (α × PyStr)} {close : Char}
  {text : α → PyStr}

variable (element text) in
/-- An element of an array or an object: its text starts one, and is read back. -/
def Written (a : α) : Prop :=
  Starts (text a) ∧ ∀ rest, Ends rest → element (text a ++ rest) = .ok (a, rest)

/-- Elements that are read back one by one are read back as a list. -/
theorem scanElements_written (hclose : close = ']' ∨ close = '\x7d') {fuel : ℕ} {value : α}
    {values : List α} (hfuel : values.length < fuel)
    (h : ∀ v ∈ value :: values, Written element text v) (rest : PyStr) :
    scanElements element close fuel (text value ++ (furtherText text close values ++ rest)) =
      .ok (value :: values, rest) := by
  have hcomma : close ≠ ',' := by rcases hclose with rfl | rfl <;> decide
  induction values generalizing value fuel with
  | nil =>
    obtain ⟨fuel, rfl⟩ := Nat.exists_eq_succ_of_ne_zero (Nat.pos_iff_ne_zero.mp hfuel)
    have hself := isChar_self close
    have hends : Ends (furtherText text close [] ++ rest) := by
      rcases hclose with rfl | rfl
      · exact .inr (.inl hself)
      · exact .inr (.inr hself)
    have hblank : skipBlank (furtherText text close [] ++ rest) =
        ⟨close.toNat, toNat_codePoint close⟩ :: rest :=
      List.dropWhile_cons_of_neg (by rcases hclose with rfl | rfl <;> decide)
    rw [scanElements_succ, (h value List.mem_cons_self).2 _ hends, Except.ok_bind]
    simp only [hblank]
    rw [if_pos hself]
    rfl
  | cons next values ih =>
    obtain ⟨fuel, rfl⟩ := Nat.exists_eq_succ_of_ne_zero
      (Nat.pos_iff_ne_zero.mp (Nat.zero_lt_of_lt hfuel))
    rw [List.length_cons] at hfuel
    have hfurther : furtherText text close (next :: values) ++ rest =
        44 :: (text next ++ (furtherText text close values ++ rest)) := by
      rw [furtherText, furtherText, List.flatMap_cons]
      simp only [List.append_assoc]
      rfl
    have hmore := ih (show values.length < fuel by omega) fun v hv =>
      h v (List.mem_cons_of_mem _ hv)
    have hstarts := ((h next (List.mem_cons_of_mem _ List.mem_cons_self)).1.append
      (furtherText text close values ++ rest)).skipBlank_eq
    have hblank : skipBlank (44 :: (text next ++ (furtherText text close values ++ rest))) =
        44 :: (text next ++ (furtherText text close values ++ rest)) :=
      List.dropWhile_cons_of_neg (by decide)
    have hends : Ends (44 :: (text next ++ (furtherText text close values ++ rest))) := Or.inl rfl
    rw [hfurther, scanElements_succ, (h value List.mem_cons_self).2 _ hends, Except.ok_bind]
    simp only [hblank]
    rw [if_neg (isChar_ne (b := close) hcomma.symm (c := 44) rfl), if_pos (by decide), hstarts,
      hmore]
    rfl

/-- So they are between brackets. -/
theorem scanBetween_written (hclose : close = ']' ∨ close = '\x7d') {value : α} {values : List α}
    (h : ∀ v ∈ value :: values, Written element text v) (rest : PyStr) :
    scanBetween element close (text value ++ (furtherText text close values ++ rest)) =
      .ok (value :: values, rest) := by
  have hstarts := (h value List.mem_cons_self).1.append (furtherText text close values ++ rest)
  have hlength := length_furtherText text close values
  rw [scanBetween, hstarts.skipBlank_eq]
  obtain ⟨c, cs, heq, -, hlist, hdict⟩ := id hstarts
  have hopen : ¬ isChar c close := by
    rcases hclose with rfl | rfl
    · exact hlist
    · exact hdict
  rw [heq]
  simp only
  rw [if_neg hopen, ← heq]
  refine scanElements_written hclose ?_ h rest
  rw [List.length_append, List.length_append]
  omega

end Written

/-! ## 5. Values are read back -/

namespace Loaded

/-- A member, as it is written. -/
def memberText (m : PyStr × Loaded) : PyStr := quoteText m.1 ++ pyStr ":" ++ compact m.2

theorem compact_list (v : Loaded) (vs : List Loaded) :
    compact (list (v :: vs)) = pyStr "[" ++ (compact v ++ furtherText compact ']' vs) := by
  have hitems : ∀ vs, compactItems vs = furtherText compact ']' vs := by
    intro vs
    induction vs with
    | nil =>
      rw [compactItems]
      rfl
    | cons v vs ih =>
      rw [compactItems, ih, furtherText, furtherText, List.flatMap_cons]
      simp only [List.append_assoc]
  rw [compact, hitems, List.append_assoc]

theorem compact_dict (m : PyStr × Loaded) (ms : List (PyStr × Loaded)) :
    compact (dict (m :: ms)) =
      pyStr "\x7b" ++ (memberText m ++ furtherText memberText '\x7d' ms) := by
  have hmembers : ∀ ms, compactMembers ms = furtherText memberText '\x7d' ms := by
    intro ms
    induction ms with
    | nil =>
      rw [compactMembers]
      rfl
    | cons m ms ih =>
      obtain ⟨k, v⟩ := m
      rw [compactMembers, ih, furtherText, furtherText, List.flatMap_cons, memberText]
      simp only [List.append_assoc]
  obtain ⟨k, v⟩ := m
  rw [compact, hmembers, memberText]
  simp only [List.append_assoc]

end Loaded

section Values

variable (hook : Hook)

/-- A value that some levels of the stack are enough for, and whose objects the hook takes. -/
inductive Readable : ℕ → Loaded → Prop
  | none {depth : ℕ} : Readable depth .none
  | bool {depth : ℕ} {b : Bool} : Readable depth (.bool b)
  | int {depth : ℕ} {n : ℤ} : (Nat.toDigits 10 n.natAbs).length ≤ PyValue.maxStrDigits →
      Readable depth (.int n)
  | str {depth : ℕ} {s : PyStr} : Readable depth (.str s)
  | list {depth : ℕ} {items : List Loaded} : (∀ text, hook.call text ≤ depth) →
      (∀ v ∈ items, Readable depth v) → Readable (depth + 1) (.list items)
  | dict {depth : ℕ} {members : List (PyStr × Loaded)} : (∀ text, hook.call text ≤ depth) →
      hook.apply members = .ok (.dict members) → (∀ m ∈ members, Readable depth m.2) →
        Readable (depth + 1) (.dict members)

variable {hook}

theorem starts_of_head {c : CodePoint} {cs : PyStr}
    (h : isBlank c = false ∧ ¬ isChar c ']' ∧ ¬ isChar c '\x7d') : Starts (c :: cs) :=
  ⟨c, cs, rfl, h⟩

theorem starts_intText (n : ℤ) : Starts (pyText (Json.intText n)) := by
  cases n with
  | negSucc k => exact starts_of_head (by decide)
  | ofNat k =>
    show Starts (pyText (Nat.toDigits 10 k))
    have hall := isDigit_toDigits k
    cases hdigits : Nat.toDigits 10 k with
    | nil => exact absurd hdigits Nat.toDigits_ne_nil
    | cons c cs =>
      rw [hdigits] at hall
      have hdigit := hall _ List.mem_cons_self
      simp only [isDigit, Bool.and_eq_true, decide_eq_true_eq] at hdigit
      refine starts_of_head ⟨?_, ?_, ?_⟩
      · simp only [isBlank, Bool.or_eq_false_iff, decide_eq_false_iff_not]
        omega
      · intro h
        have h : c.toNat = 93 := of_decide_eq_true h
        omega
      · intro h
        have h : c.toNat = 125 := of_decide_eq_true h
        omega

theorem Readable.starts {depth : ℕ} {v : Loaded} (h : Readable hook depth v) :
    Starts v.compact := by
  cases h with
  | none => exact starts_of_head (c := 110) (by decide)
  | @bool _ b =>
    cases b with
    | true => exact starts_of_head (c := 116) (by decide)
    | false => exact starts_of_head (c := 102) (by decide)
  | @int _ n =>
    rw [Loaded.compact]
    exact starts_intText n
  | str =>
    rw [Loaded.compact, quoteText, List.append_assoc]
    exact starts_of_head (c := 34) (by decide)
  | @list _ items =>
    cases items with
    | nil => exact starts_of_head (c := 91) (by decide)
    | cons v vs =>
      rw [Loaded.compact_list]
      exact starts_of_head (c := 91) (by decide)
  | @dict _ members =>
    cases members with
    | nil => exact starts_of_head (c := 123) (by decide)
    | cons m ms =>
      rw [Loaded.compact_dict]
      exact starts_of_head (c := 123) (by decide)

/-- A key and its colon are read back. -/
theorem scanKey_quoteText (key : PyStr) {value : PyStr} (h : Starts value) :
    scanKey (quoteText key ++ (pyStr ":" ++ value)) = .ok (key, value) := by
  have hquote : quoteText key ++ (pyStr ":" ++ value) =
      34 :: (key.flatMap escapeText ++ (pyStr "\"" ++ (pyStr ":" ++ value))) := by
    rw [quoteText]
    simp only [List.append_assoc]
    rfl
  rw [hquote, scanKey, if_pos (by decide), scanString_quoteText, Except.ok_bind]
  have hblank : skipBlank (pyStr ":" ++ value) = 58 :: value :=
    List.dropWhile_cons_of_neg (by decide)
  simp only [hblank]
  rw [if_pos (by decide), h.skipBlank_eq]
  rfl

/-- What starts with no letter, and not as `-I`, is none of the words. -/
theorem scanConstant_none {c : CodePoint} {cs : PyStr} (hc : c.val < 65)
    (hminus : c = 45 → cs.head? ≠ some 73) : scanConstant (c :: cs) = none := by
  have hall : constants.all fun constant =>
      65 ≤ (constant.1.headD 65).val || (constant.1.take 2 = [45, 73]) := by decide
  have hne : constants.all fun constant => constant.1 ≠ [] := by decide
  rw [scanConstant, List.findSome?_eq_none_iff]
  intro constant hmem
  refine if_neg fun hprefix => ?_
  have hword := List.all_eq_true.mp hall constant hmem
  obtain ⟨tail, htail⟩ := hprefix
  cases hconstant : constant.1 with
  | nil => exact of_decide_eq_true (List.all_eq_true.mp hne constant hmem) hconstant
  | cons w word =>
    rw [hconstant] at hword htail
    obtain ⟨rfl, rfl⟩ := List.cons.inj htail
    rcases Bool.or_eq_true_iff.mp hword with hletter | hinfinity
    · have hletter : 65 ≤ w.val := of_decide_eq_true hletter
      omega
    · have hinfinity := of_decide_eq_true hinfinity
      obtain ⟨hw, hx⟩ := List.cons.inj hinfinity
      cases word with
      | nil => cases hx
      | cons x word => exact hminus hw (congrArg some (List.cons.inj hx).1)

/-- A number starts with no letter, bracket or quote. -/
theorem head_intText (n : ℤ) : ∃ c cs, pyText (Json.intText n) = c :: cs ∧ c.val < 65 ∧
    c.val ≠ 34 ∧ (c = 45 → ∃ d ds, cs = d :: ds ∧ d ≠ 73) := by
  have hdigits : ∀ k, ∃ c cs, pyText (Nat.toDigits 10 k) = c :: cs ∧ 48 ≤ c.val ∧ c.val ≤ 57 := by
    intro k
    have hall := isDigit_toDigits k
    cases hdigits : Nat.toDigits 10 k with
    | nil => exact absurd hdigits Nat.toDigits_ne_nil
    | cons c cs =>
      rw [hdigits] at hall
      have hdigit := hall _ List.mem_cons_self
      simp only [isDigit, Bool.and_eq_true, decide_eq_true_eq] at hdigit
      exact ⟨_, pyText cs, rfl, hdigit⟩
  cases n with
  | ofNat k =>
    obtain ⟨c, cs, heq, hlow, hhigh⟩ := hdigits k
    refine ⟨c, cs, heq, by omega, by omega, fun h45 => ?_⟩
    have hval : c.val = 45 := congrArg Fin.val h45
    omega
  | negSucc k =>
    obtain ⟨c, cs, heq, hlow, hhigh⟩ := hdigits (k + 1)
    refine ⟨45, c :: cs, congrArg (List.cons 45) heq, by decide, by decide, fun _ => ?_⟩
    refine ⟨c, cs, rfl, fun h73 => ?_⟩
    have hval : c.val = 73 := congrArg Fin.val h73
    omega

theorem isChar_val {c : CodePoint} {a : Char} (h : c.val ≠ a.toNat) : ¬ isChar c a :=
  fun hc => h (of_decide_eq_true hc)

theorem scanOnce_int {depth : ℕ} {n : ℤ}
    (hn : (Nat.toDigits 10 n.natAbs).length ≤ PyValue.maxStrDigits) {rest : PyStr}
    (hrest : Ends rest) :
    scanOnce hook depth (pyText (Json.intText n) ++ rest) = .ok (.int n, rest) := by
  have hnumber := scanNumber_int hn hrest
  obtain ⟨c, cs, heq, hlow, hquote, hminus⟩ := head_intText n
  rw [heq, List.cons_append] at hnumber ⊢
  have hconstant : scanConstant (c :: (cs ++ rest)) = none := by
    refine scanConstant_none hlow fun h45 => ?_
    obtain ⟨d, ds, rfl, hd⟩ := hminus h45
    exact fun hhead => hd (Option.some.inj hhead)
  have hbrace : c.val ≠ 123 := by omega
  have hbracket : c.val ≠ 91 := by omega
  rw [scanOnce_other (isChar_val hquote) (isChar_val hbrace) (isChar_val hbracket), hconstant]
  exact hnumber

theorem found_constant {s : PyStr} {read : Loaded × PyStr} (h : scanConstant s = some read) :
    (match scanConstant s with
      | some read => Except.ok read
      | none => scanNumber s) = .ok read := by
  rw [h]

/-- The words are read back. -/
theorem scanOnce_word {depth : ℕ} {word rest : PyStr} {v : Loaded}
    (h : (word, v) ∈ [(pyStr "null", .none), (pyStr "true", .bool true), (pyStr "false", .bool false)]) :
    scanOnce hook depth (word ++ rest) = .ok (v, rest) := by
  simp only [List.mem_cons, Prod.mk.injEq, List.not_mem_nil, or_false] at h
  rcases h with ⟨rfl, rfl⟩ | ⟨rfl, rfl⟩ | ⟨rfl, rfl⟩
  · have hconstant : scanConstant (pyStr "null" ++ rest) = some (.none, rest) := by
      simp [scanConstant, constants, pyStr, pyText, List.cons_prefix_cons]
    refine (scanOnce_other (c := 110) (by decide) (by decide) (by decide)).trans ?_
    exact found_constant hconstant
  · have hconstant : scanConstant (pyStr "true" ++ rest) = some (.bool true, rest) := by
      simp [scanConstant, constants, pyStr, pyText, List.cons_prefix_cons]
    refine (scanOnce_other (c := 116) (by decide) (by decide) (by decide)).trans ?_
    exact found_constant hconstant
  · have hconstant : scanConstant (pyStr "false" ++ rest) = some (.bool false, rest) := by
      simp [scanConstant, constants, pyStr, pyText, List.cons_prefix_cons]
    refine (scanOnce_other (c := 102) (by decide) (by decide) (by decide)).trans ?_
    exact found_constant hconstant

theorem starts_memberText (m : PyStr × Loaded) : Starts (Loaded.memberText m) := by
  rw [Loaded.memberText, quoteText, List.append_assoc, List.append_assoc, List.append_assoc]
  exact starts_of_head (c := 34) (by decide)

theorem scanMember_written {depth : ℕ} {m : PyStr × Loaded}
    (h : Written (scanOnce hook depth) Loaded.compact m.2) :
    Written (scanMember (scanOnce hook depth)) Loaded.memberText m := by
  refine ⟨starts_memberText m, fun rest hrest => ?_⟩
  have hvalue := h.1.append rest
  rw [Loaded.memberText, List.append_assoc, List.append_assoc, scanMember,
    scanKey_quoteText m.1 hvalue, Except.ok_bind]
  show (scanOnce hook depth (m.2.compact ++ rest) >>= fun read => pure ((m.1, read.1), read.2)) = _
  rw [h.2 rest hrest]
  rfl

theorem scanOnce_list {depth : ℕ} {items : List Loaded}
    (hcall : ∀ text, hook.call text ≤ depth)
    (hitems : ∀ v ∈ items, Written (scanOnce hook depth) Loaded.compact v) (rest : PyStr) :
    scanOnce hook (depth + 1) ((Loaded.list items).compact ++ rest) = .ok (.list items, rest) := by
  cases items with
  | nil =>
    rw [Loaded.compact]
    refine (scanOnce_bracket (c := 91) (by decide)).trans ?_
    rw [guardThat_pass (hcall _), Except.ok_bind]
    rfl
  | cons v vs =>
    have hread := scanBetween_written (.inl rfl) hitems rest
    rw [Loaded.compact_list, List.append_assoc, List.append_assoc]
    refine (scanOnce_bracket (c := 91) (by decide)).trans ?_
    rw [guardThat_pass (hcall _), Except.ok_bind]
    show scanBetween (scanOnce hook depth) ']'
      (v.compact ++ (furtherText Loaded.compact ']' vs ++ rest)) >>= _ = _
    rw [hread]
    rfl

theorem scanOnce_dict {depth : ℕ} {members : List (PyStr × Loaded)}
    (hcall : ∀ text, hook.call text ≤ depth) (hhook : hook.apply members = .ok (.dict members))
    (hmembers : ∀ m ∈ members, Written (scanMember (scanOnce hook depth)) Loaded.memberText m)
    (rest : PyStr) :
    scanOnce hook (depth + 1) ((Loaded.dict members).compact ++ rest) =
      .ok (.dict members, rest) := by
  cases members with
  | nil =>
    rw [Loaded.compact]
    refine (scanOnce_brace (c := 123) (by decide)).trans ?_
    rw [guardThat_pass (hcall _), Except.ok_bind]
    show (hook.apply [] >>= fun value => pure (value, rest)) = _
    rw [hhook]
    rfl
  | cons m ms =>
    have hread := scanBetween_written (.inr rfl) hmembers rest
    rw [Loaded.compact_dict, List.append_assoc, List.append_assoc]
    refine (scanOnce_brace (c := 123) (by decide)).trans ?_
    rw [guardThat_pass (hcall _), Except.ok_bind]
    show scanBetween (scanMember (scanOnce hook depth)) '\x7d'
      (Loaded.memberText m ++ (furtherText Loaded.memberText '\x7d' ms ++ rest)) >>= _ = _
    rw [hread, Except.ok_bind]
    show (hook.apply (m :: ms) >>= fun value => pure (value, rest)) = _
    rw [hhook]
    rfl

/-- A value is read back. -/
theorem scanOnce_compact {depth : ℕ} {v : Loaded} (h : Readable hook depth v) {rest : PyStr}
    (hrest : Ends rest) : scanOnce hook depth (v.compact ++ rest) = .ok (v, rest) := by
  induction h generalizing rest with
  | none =>
    rw [Loaded.compact]
    exact scanOnce_word (by simp)
  | @bool depth b =>
    cases b with
    | true =>
      rw [Loaded.compact]
      exact scanOnce_word (by simp)
    | false =>
      rw [Loaded.compact]
      exact scanOnce_word (by simp)
  | int hn =>
    rw [Loaded.compact]
    exact scanOnce_int hn hrest
  | @str depth s =>
    have hquote : (Loaded.str s).compact ++ rest =
        34 :: (s.flatMap escapeText ++ (pyStr "\"" ++ rest)) := by
      rw [Loaded.compact, quoteText]
      simp only [List.append_assoc]
      rfl
    rw [hquote, scanOnce_quote (by decide), scanString_quoteText]
    rfl
  | list hcall hitems ih =>
    exact scanOnce_list hcall (fun v hv => ⟨(hitems v hv).starts, fun _ => ih v hv⟩) rest
  | dict hcall hhook hmembers ih =>
    exact scanOnce_dict hcall hhook
      (fun m hm => scanMember_written ⟨(hmembers m hm).starts, fun _ => ih m hm⟩) rest

/-- The text tells the value. -/
theorem compact_injective {depth : ℕ} {v w : Loaded} (hv : Readable hook depth v)
    (hw : Readable hook depth w) (h : v.compact = w.compact) : v = w := by
  have hfirst := scanOnce_compact hv (show Ends [] from trivial)
  have hsecond := scanOnce_compact hw (show Ends [] from trivial)
  rw [h, hsecond] at hfirst
  exact (Prod.mk.inj (Except.ok.inj hfirst)).1.symm

/-! ## 6. Bytes -/

theorem utf8_ascii {c : CodePoint} (h : c.val < 128) (rest : PyStr) :
    utf8 (c :: rest) = Fin.ofNat _ c.val :: utf8 rest := by
  rw [utf8, List.flatMap_cons, utf8Char, if_pos h]
  rfl

/-- A text that starts with two characters of ASCII is taken for UTF-8. -/
theorem decodeText_utf8 {a b : CodePoint} {rest : PyStr} (ha : 0 < a.val ∧ a.val < 128)
    (hb : 0 < b.val ∧ b.val < 128) : decodeText (utf8 (a :: b :: rest)) = some (a :: b :: rest) := by
  have hback := decodeUtf8_utf8 (a :: b :: rest)
  rw [utf8_ascii ha.2, utf8_ascii hb.2] at hback ⊢
  have hfirst : (Fin.ofNat 256 a.val).val = a.val := byte_val (by omega)
  have hsecond : (Fin.ofNat 256 b.val).val = b.val := byte_val (by omega)
  have hne : ∀ n : Byte, (n.val = 0 ∨ 128 ≤ n.val) → n ≠ Fin.ofNat 256 a.val := by
    rintro n hn rfl
    rw [hfirst] at hn
    omega
  have hb0 : Fin.ofNat 256 b.val ≠ 0 := by
    intro h
    have hval := congrArg Fin.val h
    rw [hsecond] at hval
    have hzero : (0 : Byte).val = 0 := rfl
    omega
  have ha0 := (hne 0 (.inl rfl)).symm
  have hnoMark : ∀ (n : Byte) (mark : List Byte), (n.val = 0 ∨ 128 ≤ n.val) →
      ¬ (n :: mark) <+: Fin.ofNat 256 a.val :: Fin.ofNat 256 b.val :: utf8 rest :=
    fun n mark hn hprefix => hne n hn (List.cons_prefix_cons.mp hprefix).1
  rw [decodeText.eq_def, if_neg (hnoMark _ _ (by decide)), if_neg (hnoMark _ _ (by decide)),
    if_neg (hnoMark _ _ (by decide)), if_neg (hnoMark _ _ (by decide)),
    if_neg (hnoMark _ _ (by decide))]
  cases hrest : utf8 rest with
  | nil =>
    rw [hrest] at hback
    show (if Fin.ofNat 256 a.val = 0 then _ else if Fin.ofNat 256 b.val = 0 then _ else _) = _
    rw [if_neg ha0, if_neg hb0]
    exact hback
  | cons c more =>
    rw [hrest] at hback
    cases more with
    | nil => exact hback
    | cons d more =>
      show (if Fin.ofNat 256 a.val = 0 then _ else if Fin.ofNat 256 b.val = 0 then _ else _) = _
      rw [if_neg ha0, if_neg hb0]
      exact hback

/-- An object is read back from its bytes. -/
theorem loads_compact {depth : ℕ} {m : PyStr × Loaded} {ms : List (PyStr × Loaded)}
    (h : Readable hook depth (.dict (m :: ms))) :
    loads hook depth (utf8 (Loaded.compact (.dict (m :: ms)))) = .ok (.dict (m :: ms)) := by
  have hstart : ∃ rest, Loaded.compact (.dict (m :: ms)) = 123 :: 34 :: rest := by
    rw [Loaded.compact_dict, Loaded.memberText, quoteText]
    simp only [List.append_assoc]
    exact ⟨_, rfl⟩
  have hread := scanOnce_compact h (show Ends [] from trivial)
  rw [List.append_nil] at hread
  obtain ⟨rest, heq⟩ := hstart
  have hblank : skipBlank (123 :: 34 :: rest) = 123 :: 34 :: rest :=
    List.dropWhile_cons_of_neg (by decide)
  rw [heq] at hread ⊢
  rw [loads, decodeText_utf8 (by decide) (by decide)]
  show (scanOnce hook depth (skipBlank (123 :: 34 :: rest)) >>= fun read =>
    guardThat (skipBlank read.2 = []) LoadError.value >>= fun _ => pure read.1) = _
  rw [hblank, hread]
  rfl

end Values

end NokincFactory
