/-
  File:      NokincFactory/Domain/JsonScanner.lean
  Subject:   `json.loads` of bytes, with a hook for the members of an object.

  The scanner goes one level of the stack deeper for each bracket that it opens. What it calls
  between two brackets takes some more: the hook, a constant such as `NaN`, the making of an error.
  How many levels the interpreter has left, and how many are called for where, are parameters. What
  the scanner finds wrong is a `ValueError`, and no message of it is read. A number that is no
  integer is the double next to it, by its `repr`.

  * `decodeText`: the text behind the bytes, by `json.detect_encoding`;
  * `scanString`, `scanNumber`, `scanConstant`: what holds no other value;
  * `scanOnce`, `loads`, `loadsText`: values, and the whole text;
  * `Hook`, `uniqueObject`: what becomes of the members of an object; a key twice is refused;
  * `scanElements_fuel`: the loops never run out of their bound;
  * `TooDeep`, `scanOnce_recursion`: the texts that exhaust the stack.
-/
import NokincFactory.Domain.PyStrings
import NokincFactory.Lib.Bytes
import NokincFactory.Lib.Checked
import NokincFactory.Lib.FloatRepr

namespace NokincFactory

/-! ## 1. Values and texts -/

/-- What `json.loads` gives. A `float` is kept by its `repr`, as `json` writes it. -/
inductive Loaded where
  | none
  | bool (value : Bool)
  | int (value : ℤ)
  | float (repr : PyStr)
  | str (value : PyStr)
  | list (items : List Loaded)
  | dict (members : List (PyStr × Loaded))

/-- A `JSONDecodeError` or a `ValueError` of the hook, the plain `ValueError` over an integer of
too many digits, or a `RecursionError`. -/
inductive LoadError where
  | value | digits | recursion
deriving DecidableEq

/-- `bytes.decode` with `surrogatepass`, as `json.detect_encoding` says. -/
def decodeText (bytes : List Byte) : Option PyStr :=
  if [0, 0, 0xfe, 0xff] <+: bytes then decodeUtf32 true (bytes.drop 4)
  else if [0xff, 0xfe, 0, 0] <+: bytes then decodeUtf32 false (bytes.drop 4)
  else if [0xfe, 0xff] <+: bytes then decodeUtf16 true (bytes.drop 2)
  else if [0xff, 0xfe] <+: bytes then decodeUtf16 false (bytes.drop 2)
  else if [0xef, 0xbb, 0xbf] <+: bytes then decodeUtf8 (bytes.drop 3)
  else match bytes with
    | [a, b] =>
      if a = 0 then decodeUtf16 true bytes
      else if b = 0 then decodeUtf16 false bytes
      else decodeUtf8 bytes
    | a :: b :: c :: d :: _ =>
      if a = 0 then if b = 0 then decodeUtf32 true bytes else decodeUtf16 true bytes
      else if b = 0 then
        if c = 0 ∧ d = 0 then decodeUtf32 false bytes else decodeUtf16 false bytes
      else decodeUtf8 bytes
    | _ => decodeUtf8 bytes

/-! ## 2. Strings -/

/-- The value of a hexadecimal digit. -/
def hexOf (c : CodePoint) : Option ℕ :=
  if 48 ≤ c.val ∧ c.val ≤ 57 then some (c.val - 48)
  else if 65 ≤ c.val ∧ c.val ≤ 70 then some (c.val - 55)
  else if 97 ≤ c.val ∧ c.val ≤ 102 then some (c.val - 87)
  else none

/-- The unit behind `\u` and four characters. -/
def hexUnit (a b c d : CodePoint) : Option CodePoint := do
  let a ← hexOf a
  let b ← hexOf b
  let c ← hexOf c
  let d ← hexOf d
  pure (Fin.ofNat _ (a * 4096 + b * 256 + c * 16 + d))

/-- The character behind a backslash and another character than `u`. -/
def escaped (c : CodePoint) : Option CodePoint :=
  if isChar c '"' || isChar c '\\' || isChar c '/' then some c
  else if isChar c 'b' then some 8
  else if isChar c 'f' then some 12
  else if isChar c 'n' then some 10
  else if isChar c 'r' then some 13
  else if isChar c 't' then some 9
  else none

/-- A character of a literal, and whether it was written as `\u`. -/
abbrev Scanned := CodePoint × Bool

def push (c : Scanned) (read : List Scanned × PyStr) : List Scanned × PyStr :=
  (c :: read.1, read.2)

/-- The characters up to the closing quote, and what follows it. -/
def scanBody : PyStr → Except LoadError (List Scanned × PyStr)
  | [] => .error .value
  | c :: rest =>
    if isChar c '"' then .ok ([], rest)
    else if isChar c '\\' then
      match rest with
      | [] => .error .value
      | e :: rest =>
        if isChar e 'u' then
          match rest with
          | p :: q :: r :: s :: rest =>
            match hexUnit p q r s with
            | none => .error .value
            | some unit => (scanBody rest).map (push (unit, true))
          | _ => .error .value
        else
          match escaped e with
          | none => .error .value
          | some c => (scanBody rest).map (push (c, false))
    else if c.val < 32 then .error .value
    else (scanBody rest).map (push (c, false))

/-- Two `\u` that are a pair of surrogates are one character. -/
def joinPairs : List Scanned → PyStr
  | [] => []
  | [c] => [c.1]
  | c :: d :: rest =>
    if c.2 ∧ d.2 ∧ (0xd800 ≤ c.1.val ∧ c.1.val < 0xdc00) ∧ 0xdc00 ≤ d.1.val ∧ d.1.val < 0xe000 then
      Fin.ofNat _ (0x10000 + (c.1.val - 0xd800) * 1024 + (d.1.val - 0xdc00)) :: joinPairs rest
    else c.1 :: joinPairs (d :: rest)

/-- A string literal, after its opening quote. -/
def scanString (s : PyStr) : Except LoadError (PyStr × PyStr) :=
  (scanBody s).map fun read => (joinPairs read.1, read.2)

/-! ## 3. Numbers and constants -/

def isDigit (c : CodePoint) : Bool := 48 ≤ c.val && c.val ≤ 57

/-- An integer without its sign: zero, or digits that start with another one. -/
def integer : PyStr → PyStr
  | [] => []
  | c :: rest =>
    if isChar c '0' then [c] else if isDigit c then c :: rest.takeWhile isDigit else []

/-- A point and digits, if that is what follows. -/
def fraction : PyStr → PyStr
  | p :: rest =>
    let digits := rest.takeWhile isDigit
    if isChar p '.' ∧ digits ≠ [] then p :: digits else []
  | [] => []

/-- An exponent, if that is what follows. -/
def exponent : PyStr → PyStr
  | e :: rest =>
    let sign := (rest.take 1).filter fun c => isChar c '-' || isChar c '+'
    let digits := (rest.drop sign.length).takeWhile isDigit
    if (isChar e 'e' ∨ isChar e 'E') ∧ digits ≠ [] then e :: (sign ++ digits) else []
  | [] => []

/-- The number that some digits spell. -/
def spelled (digits : PyStr) : ℕ := digits.foldl (fun n c => 10 * n + (c.val - 48)) 0

/-- `float` of a literal in its parts. -/
def floatText (sign digits part power : PyStr) : PyStr :=
  let written := spelled (digits ++ part.drop 1)
  let exponent := (spelled ((power.drop 1).filter isDigit) : ℤ)
  let shift := (if (power.drop 1).any (isChar · '-') then -exponent else exponent) -
    (part.drop 1).length
  let magnitude : ℚ := if 0 ≤ shift then ((written * 10 ^ shift.toNat : ℕ) : ℚ)
    else (written : ℚ) / ((10 ^ (-shift).toNat : ℕ) : ℚ)
  sign ++ pyText (Binary64.reprText magnitude)

/-- `_match_number_unicode`. An integer of more digits than `int` converts is refused. -/
def scanNumber (s : PyStr) : Except LoadError (Loaded × PyStr) :=
  let sign := (s.take 1).filter (isChar · '-')
  let digits := integer (s.drop sign.length)
  let afterDigits := s.drop (sign.length + digits.length)
  let part := fraction afterDigits
  let power := exponent (afterDigits.drop part.length)
  if digits = [] then .error .value
  else if part = [] ∧ power = [] then
    if digits.length ≤ PyValue.maxStrDigits then
      .ok (.int (if sign = [] then spelled digits else -spelled digits), afterDigits)
    else .error .digits
  else
    .ok (.float (floatText sign digits part power), afterDigits.drop (part.length + power.length))

/-- The words that are values. -/
def constants : List (PyStr × Loaded) :=
  [(pyStr "null", .none), (pyStr "true", .bool true), (pyStr "false", .bool false),
    (pyStr "NaN", .float (pyStr "NaN")), (pyStr "Infinity", .float (pyStr "Infinity")),
    (pyStr "-Infinity", .float (pyStr "-Infinity"))]

def scanConstant (s : PyStr) : Option (Loaded × PyStr) :=
  constants.findSome? fun constant =>
    if constant.1 <+: s then some (constant.2, s.drop constant.1.length) else none

/-! ## 4. Values -/

def isBlank (c : CodePoint) : Bool := c.val = 32 || c.val = 9 || c.val = 10 || c.val = 13

def skipBlank (s : PyStr) : PyStr := s.dropWhile isBlank

/-- Elements with commas between them, and the bracket that closes them. -/
def scanElements {α : Type} (element : PyStr → Except LoadError (α × PyStr)) (close : Char) :
    ℕ → PyStr → Except LoadError (List α × PyStr)
  | 0, _ => .error .value
  | fuel + 1, s => do
    let (value, rest) ← element s
    match skipBlank rest with
    | [] => .error .value
    | c :: rest =>
      if isChar c close then pure ([value], rest)
      else if isChar c ',' then do
        let (values, rest) ← scanElements element close fuel (skipBlank rest)
        pure (value :: values, rest)
      else .error .value

/-- What stands between two brackets, after the opening one. -/
def scanBetween {α : Type} (element : PyStr → Except LoadError (α × PyStr)) (close : Char)
    (s : PyStr) : Except LoadError (List α × PyStr) :=
  match skipBlank s with
  | [] => .error .value
  | c :: rest =>
    if isChar c close then pure ([], rest)
    else scanElements element close (c :: rest).length (c :: rest)

/-- A key and its colon, and the text of the value. -/
def scanKey : PyStr → Except LoadError (PyStr × PyStr)
  | [] => .error .value
  | c :: rest =>
    if isChar c '"' then do
      let (key, rest) ← scanString rest
      match skipBlank rest with
      | [] => .error .value
      | c :: rest => if isChar c ':' then pure (key, skipBlank rest) else .error .value
    else .error .value

def scanMember (value : PyStr → Except LoadError (Loaded × PyStr)) (s : PyStr) :
    Except LoadError ((PyStr × Loaded) × PyStr) := do
  let (key, rest) ← scanKey s
  let (value, rest) ← value rest
  pure ((key, value), rest)

/-- What becomes of the members of an object; and how many levels of the stack are called for
between the brackets at the front of a text, beside those of brackets within: by the hook, by a
constant, by the making of an error. -/
structure Hook where
  apply : List (PyStr × Loaded) → Except LoadError Loaded
  call : PyStr → ℕ

section

variable (hook : Hook)

/-- A value at the front of a text, with some levels of the stack left. -/
def scanOnce : ℕ → PyStr → Except LoadError (Loaded × PyStr)
  | _, [] => .error .value
  | depth, c :: rest =>
    if isChar c '"' then (scanString rest).map fun read => (.str read.1, read.2)
    else if isChar c '\x7b' then
      match depth with
      | 0 => .error .recursion
      | depth + 1 => do
        guardThat (hook.call (c :: rest) ≤ depth) .recursion
        let (members, rest) ← scanBetween (scanMember (scanOnce depth)) '\x7d' rest
        let value ← hook.apply members
        pure (value, rest)
    else if isChar c '[' then
      match depth with
      | 0 => .error .recursion
      | depth + 1 => do
        guardThat (hook.call (c :: rest) ≤ depth) .recursion
        let (items, rest) ← scanBetween (scanOnce depth) ']' rest
        pure (.list items, rest)
    else
      match scanConstant (c :: rest) with
      | some read => .ok read
      | none => scanNumber (c :: rest)

/-- `json.loads(raw, object_pairs_hook=hook)`. -/
def loads (depth : ℕ) (raw : List Byte) : Except LoadError Loaded :=
  match decodeText raw with
  | none => .error .value
  | some text => do
    let (value, rest) ← scanOnce hook depth (skipBlank text)
    guardThat (skipBlank rest = []) .value
    pure value

end

/-- `json.loads(text, object_pairs_hook=hook)` of a string. -/
def loadsText (hook : Hook) (depth : ℕ) (text : PyStr) : Except LoadError Loaded :=
  if text.head? = some 0xfeff then .error .value
  else do
    let (value, rest) ← scanOnce hook depth (skipBlank text)
    guardThat (skipBlank rest = []) .value
    pure value

/-- A round of the loop of a hook that refuses a key twice. -/
def addMember (result : List (PyStr × Loaded)) (pair : PyStr × Loaded) :
    Except LoadError (List (PyStr × Loaded)) :=
  if pair.1 ∈ result.map Prod.fst then .error .value else .ok (result ++ [pair])

/-- `_unique_object`, and `unique_object` of the model replies. -/
def uniqueObject (pairs : List (PyStr × Loaded)) : Except LoadError Loaded := do
  let result ← pairs.foldlM addMember []
  pure (.dict result)

namespace Loaded

/-- `dict.get`. -/
def get (members : List (PyStr × Loaded)) (key : String) : Option Loaded :=
  (members.find? fun member => member.1 = pyStr key).map Prod.snd

end Loaded

/-! ## 5. What a scan leaves -/

/-- A scan that leaves less than it got, and needs no stack. -/
structure Plain {α : Type} (n : ℕ) (x : Except LoadError (α × PyStr)) : Prop where
  shorter : ∀ read, x = .ok read → read.2.length < n
  flat : x ≠ .error .recursion

section Plain

variable {α β : Type} {m n : ℕ}

theorem Plain.error : Plain n (.error .value : Except LoadError (α × PyStr)) :=
  ⟨fun _ h => (nomatch h), fun h => (nomatch h)⟩

theorem Plain.digits : Plain n (.error .digits : Except LoadError (α × PyStr)) :=
  ⟨fun _ h => (nomatch h), fun h => (nomatch h)⟩

theorem Plain.ok {read : α × PyStr} (h : read.2.length < n) : Plain n (.ok read) := by
  refine ⟨fun read' heq => ?_, fun h => (nomatch h)⟩
  cases heq
  exact h

theorem Plain.map {x : Except LoadError (α × PyStr)} {f : α × PyStr → β × PyStr}
    (h : Plain m x) (hmn : m ≤ n) (hf : ∀ read, (f read).2 = read.2) : Plain n (x.map f) := by
  refine ⟨fun read hread => ?_, fun hrecursion => ?_⟩
  · obtain ⟨read', hread', rfl⟩ := Except.map_ok.mp hread
    have hless := h.shorter read' hread'
    rw [hf]
    omega
  · cases x with
    | ok read => cases hrecursion
    | error e =>
      cases hrecursion
      exact h.flat rfl

end Plain

theorem scanBody_plain (s : PyStr) : Plain s.length (scanBody s) := by
  fun_induction scanBody s with
  | case1 => exact .error
  | case2 c rest hquote => exact .ok (Nat.lt_succ_self _)
  | case3 => exact .error
  | case4 => exact .error
  | case5 => exact Plain.map (by assumption) (by simp; omega) fun _ => rfl
  | case6 => exact .error
  | case7 => exact .error
  | case8 => exact Plain.map (by assumption) (by simp; omega) fun _ => rfl
  | case9 => exact .error
  | case10 => exact Plain.map (by assumption) (by simp) fun _ => rfl

theorem scanString_plain (s : PyStr) : Plain s.length (scanString s) :=
  (scanBody_plain s).map le_rfl fun _ => rfl

theorem scanNumber_plain (s : PyStr) : Plain s.length (scanNumber s) := by
  rw [scanNumber]
  by_cases hdigits : integer (s.drop ((s.take 1).filter (isChar · '-')).length) = []
  · rw [if_pos hdigits]
    exact .error
  · rw [if_neg hdigits]
    have hs : 0 < s.length := by
      cases s with
      | nil => exact absurd rfl hdigits
      | cons c rest => exact Nat.succ_pos _
    have hpos := List.length_pos_iff.mpr hdigits
    split
    · split
      · refine .ok ?_
        simp only [List.length_drop]
        omega
      · exact .digits
    · refine .ok ?_
      simp only [List.length_drop]
      omega

theorem scanConstant_shorter {s : PyStr} {read : Loaded × PyStr} (h : scanConstant s = some read) :
    read.2.length < s.length := by
  obtain ⟨constant, hmem, hread⟩ := List.exists_of_findSome?_eq_some h
  have hword : ∀ constant ∈ constants, 0 < constant.1.length := by decide
  by_cases hprefix : constant.1 <+: s
  · rw [if_pos hprefix] at hread
    cases hread
    have hlength := hprefix.length_le
    have hpos := hword constant hmem
    simp only [List.length_drop]
    omega
  · rw [if_neg hprefix] at hread
    cases hread

theorem skipBlank_length (s : PyStr) : (skipBlank s).length ≤ s.length :=
  (List.dropWhile_suffix isBlank).length_le

theorem scanKey_plain (s : PyStr) : Plain s.length (scanKey s) := by
  cases s with
  | nil => exact .error
  | cons c rest =>
    rw [scanKey]
    by_cases hquote : isChar c '"'
    · rw [if_pos hquote]
      have hstring := scanString_plain rest
      cases hread : scanString rest with
      | error e =>
        cases e with
        | value => exact .error
        | digits => exact .digits
        | recursion => exact absurd hread hstring.flat
      | ok read =>
        obtain ⟨key, left⟩ := read
        have hleft := hstring.shorter _ hread
        have hblank := skipBlank_length left
        show Plain _ (match skipBlank left with
          | [] => .error .value
          | c :: rest => if isChar c ':' then pure (key, skipBlank rest) else .error .value)
        cases hcolon : skipBlank left with
        | nil => exact .error
        | cons d after =>
          by_cases hd : isChar d ':'
          · simp only [if_pos hd]
            have hafter := skipBlank_length after
            rw [hcolon] at hblank
            refine .ok ?_
            simp only [List.length_cons] at *
            omega
          · simp only [if_neg hd]
            exact .error
    · rw [if_neg hquote]
      exact .error

/-! ## 6. Lists of elements -/

section Elements

variable {α : Type} {element : PyStr → Except LoadError (α × PyStr)} {close : Char}

/-- An element takes something from the text. -/
def Shortens (element : PyStr → Except LoadError (α × PyStr)) : Prop :=
  ∀ s read, element s = .ok read → read.2.length < s.length

/-- The texts at which the elements of a list start. -/
inductive Reaches (element : PyStr → Except LoadError (α × PyStr)) : PyStr → PyStr → Prop
  | first {s : PyStr} : Reaches element s s
  | later {s rest after t : PyStr} {value : α} {c : CodePoint} :
      element s = .ok (value, rest) → skipBlank rest = c :: after → isChar c ',' →
      Reaches element (skipBlank after) t → Reaches element s t

/-- One round of the loop. -/
theorem scanElements_succ {fuel : ℕ} {s : PyStr} :
    scanElements element close (fuel + 1) s = element s >>= fun read =>
      match skipBlank read.2 with
      | [] => .error .value
      | c :: rest =>
        if isChar c close then pure ([read.1], rest)
        else if isChar c ',' then
          scanElements element close fuel (skipBlank rest) >>= fun more =>
            pure (read.1 :: more.1, more.2)
        else .error .value := rfl

theorem scanElements_shortens (h : Shortens element) (fuel : ℕ) :
    Shortens (scanElements element close fuel) := by
  induction fuel with
  | zero => exact fun s read hread => (nomatch hread)
  | succ fuel ih =>
    intro s read hread
    rw [scanElements_succ] at hread
    obtain ⟨first, hfirst, hread⟩ := Except.bind_ok.mp hread
    have hless := h s first hfirst
    have hblank := skipBlank_length first.2
    cases hrest : skipBlank first.2 with
    | nil =>
      rw [hrest] at hread
      cases hread
    | cons c rest =>
      rw [hrest] at hread hblank
      simp only [List.length_cons] at hread hblank
      by_cases hclose : isChar c close
      · rw [if_pos hclose] at hread
        cases hread
        show rest.length < s.length
        omega
      · rw [if_neg hclose] at hread
        by_cases hcomma : isChar c ','
        · rw [if_pos hcomma] at hread
          obtain ⟨more, hmore, hread⟩ := Except.bind_ok.mp hread
          cases hread
          have hless := ih _ more hmore
          have hblank := skipBlank_length rest
          show more.2.length < s.length
          omega
        · rw [if_neg hcomma] at hread
          cases hread

/-- As many rounds as there are characters are enough: more make no difference. -/
theorem scanElements_fuel (h : Shortens element) {m n : ℕ} {s : PyStr} (hm : 0 < m)
    (hms : s.length ≤ m) (hn : 0 < n) (hns : s.length ≤ n) :
    scanElements element close m s = scanElements element close n s := by
  induction m generalizing n s with
  | zero => cases hm
  | succ m ih =>
    obtain ⟨n, rfl⟩ := Nat.exists_eq_succ_of_ne_zero (Nat.pos_iff_ne_zero.mp hn)
    rw [scanElements_succ, scanElements_succ]
    cases hread : element s with
    | error e => rfl
    | ok read =>
      have hless := h s read hread
      have hblank := skipBlank_length read.2
      rw [Except.ok_bind, Except.ok_bind]
      cases hrest : skipBlank read.2 with
      | nil => rfl
      | cons c rest =>
        rw [hrest] at hblank
        simp only [List.length_cons] at hblank
        have hafter := skipBlank_length rest
        show (if isChar c close then _ else _) = _
        rw [ih (by omega) (by omega) (by omega : 0 < n) (by omega)]

/-- A list exhausts the stack iff an element of it does. -/
theorem scanElements_recursion (h : Shortens element) (hclose : close ≠ ',') {fuel : ℕ} {s : PyStr}
    (hfuel : 0 < fuel) (hs : s.length ≤ fuel) :
    scanElements element close fuel s = .error .recursion ↔
      ∃ t, Reaches element s t ∧ element t = .error .recursion := by
  induction fuel generalizing s with
  | zero => cases hfuel
  | succ fuel ih =>
    rw [scanElements_succ, Except.bind_error]
    constructor
    · rintro (hnow | ⟨read, hread, hlater⟩)
      · exact ⟨s, .first, hnow⟩
      · have hless := h s read hread
        have hblank := skipBlank_length read.2
        cases hrest : skipBlank read.2 with
        | nil =>
          rw [hrest] at hlater
          cases hlater
        | cons c rest =>
          rw [hrest] at hlater hblank
          simp only [List.length_cons] at hlater hblank
          have hafter := skipBlank_length rest
          by_cases hc : isChar c close
          · rw [if_pos hc] at hlater
            cases hlater
          · rw [if_neg hc] at hlater
            by_cases hcomma : isChar c ','
            · rw [if_pos hcomma, Except.bind_error] at hlater
              rcases hlater with hmore | ⟨more, -, hmore⟩
              · obtain ⟨t, hreach, ht⟩ := (ih (by omega) (by omega)).mp hmore
                exact ⟨t, .later hread hrest hcomma hreach, ht⟩
              · cases hmore
            · rw [if_neg hcomma] at hlater
              cases hlater
    · rintro ⟨t, hreach, ht⟩
      cases hreach with
      | first => exact .inl ht
      | @later _ rest after _ value c hread hrest hcomma hreach =>
        have hless := h s (value, rest) hread
        have hblank := skipBlank_length rest
        have hafter := skipBlank_length after
        rw [hrest] at hblank
        simp only [List.length_cons] at hless hblank
        refine .inr ⟨(value, rest), hread, ?_⟩
        have hmore := (ih (s := skipBlank after) (by omega) (by omega)).mpr ⟨t, hreach, ht⟩
        simp only [hrest]
        rw [if_neg (isChar_ne hclose.symm hcomma), if_pos hcomma, hmore]
        rfl

theorem scanBetween_shortens (h : Shortens element) : Shortens (scanBetween element close) := by
  intro s read hread
  have hblank := skipBlank_length s
  rw [scanBetween] at hread
  cases hrest : skipBlank s with
  | nil =>
    rw [hrest] at hread
    cases hread
  | cons c rest =>
    rw [hrest] at hread hblank
    simp only at hread
    by_cases hc : isChar c close
    · rw [if_pos hc] at hread
      cases hread
      exact hblank
    · rw [if_neg hc] at hread
      have hless := scanElements_shortens h _ _ read hread
      omega

/-- Nothing between two brackets exhausts the stack but an element. -/
theorem scanBetween_recursion (h : Shortens element) (hclose : close ≠ ',')
    (hnil : element [] = .error .value)
    (hfail : ∀ c rest, isChar c close → element (c :: rest) = .error .value) {s : PyStr} :
    scanBetween element close s = .error .recursion ↔
      ∃ t, Reaches element (skipBlank s) t ∧ element t = .error .recursion := by
  have hnone : ∀ {s t}, element s = .error .value → Reaches element s t →
      element t ≠ .error .recursion := by
    intro s t hs hreach
    cases hreach with
    | first =>
      rw [hs]
      exact nofun
    | later hread =>
      rw [hs] at hread
      cases hread
  rw [scanBetween]
  cases hrest : skipBlank s with
  | nil =>
    refine ⟨fun hrecursion => (nomatch hrecursion), ?_⟩
    rintro ⟨t, hreach, ht⟩
    exact absurd ht (hnone hnil hreach)
  | cons c rest =>
    by_cases hc : isChar c close
    · simp only [if_pos hc]
      refine ⟨fun hrecursion => (nomatch hrecursion), ?_⟩
      rintro ⟨t, hreach, ht⟩
      exact absurd ht (hnone (hfail c rest hc) hreach)
    · simp only [if_neg hc]
      exact scanElements_recursion h hclose (Nat.succ_pos _) le_rfl

end Elements

/-! ## 7. Texts that exhaust the stack -/

section Stack

variable {hook : Hook} {depth : ℕ} {c : CodePoint} {rest : PyStr}

theorem scanOnce_nil : scanOnce hook depth [] = .error .value := by
  cases depth <;> rfl

theorem scanOnce_quote (h : isChar c '"') : scanOnce hook depth (c :: rest) =
    (scanString rest).map fun read => (.str read.1, read.2) := by
  cases depth <;> exact if_pos h

theorem scanOnce_brace (h : isChar c '\x7b') : scanOnce hook (depth + 1) (c :: rest) =
    guardThat (hook.call (c :: rest) ≤ depth) .recursion >>= fun _ =>
      scanBetween (scanMember (scanOnce hook depth)) '\x7d' rest >>= fun read =>
        hook.apply read.1 >>= fun value => pure (value, read.2) := by
  rw [scanOnce, if_neg (isChar_ne (by decide) h), if_pos h]

theorem scanOnce_bracket (h : isChar c '[') : scanOnce hook (depth + 1) (c :: rest) =
    guardThat (hook.call (c :: rest) ≤ depth) .recursion >>= fun _ =>
      scanBetween (scanOnce hook depth) ']' rest >>= fun read => pure (.list read.1, read.2) := by
  rw [scanOnce, if_neg (isChar_ne (by decide) h), if_neg (isChar_ne (by decide) h), if_pos h]

theorem scanOnce_open (h : isChar c '\x7b' ∨ isChar c '[') :
    scanOnce hook 0 (c :: rest) = .error .recursion := by
  rcases h with h | h
  · rw [scanOnce, if_neg (isChar_ne (by decide) h), if_pos h]
  · rw [scanOnce, if_neg (isChar_ne (by decide) h), if_neg (isChar_ne (by decide) h), if_pos h]

theorem scanOnce_other (hquote : ¬ isChar c '"') (hbrace : ¬ isChar c '\x7b')
    (hbracket : ¬ isChar c '[') : scanOnce hook depth (c :: rest) =
      match scanConstant (c :: rest) with
      | some read => .ok read
      | none => scanNumber (c :: rest) := by
  cases depth <;> rw [scanOnce, if_neg hquote, if_neg hbrace, if_neg hbracket]

/-- What holds no other value needs no stack. -/
theorem scanOnce_plain (hbrace : ¬ isChar c '\x7b') (hbracket : ¬ isChar c '[') :
    Plain (c :: rest).length (scanOnce hook depth (c :: rest)) := by
  by_cases hquote : isChar c '"'
  · rw [scanOnce_quote hquote]
    exact (scanString_plain rest).map (Nat.le_succ _) fun _ => rfl
  · rw [scanOnce_other hquote hbrace hbracket]
    cases hconstant : scanConstant (c :: rest) with
    | some read => exact .ok (scanConstant_shorter hconstant)
    | none => exact scanNumber_plain (c :: rest)

theorem scanMember_shortens {value : PyStr → Except LoadError (Loaded × PyStr)}
    (h : Shortens value) : Shortens (scanMember value) := by
  intro s read hread
  rw [scanMember] at hread
  obtain ⟨key, hkey, hread⟩ := Except.bind_ok.mp hread
  obtain ⟨found, hfound, hread⟩ := Except.bind_ok.mp hread
  obtain rfl := Except.pure_ok.mp hread
  have hless := (scanKey_plain s).shorter key hkey
  have hvalue := h key.2 found hfound
  show found.2.length < s.length
  omega

theorem scanOnce_shortens : Shortens (scanOnce hook depth) := by
  induction depth with
  | zero =>
    intro s read hread
    cases s with
    | nil => cases hread
    | cons c rest =>
      by_cases hopen : isChar c '\x7b' ∨ isChar c '['
      · rw [scanOnce_open hopen] at hread
        cases hread
      · obtain ⟨hbrace, hbracket⟩ := not_or.mp hopen
        exact (scanOnce_plain hbrace hbracket).shorter read hread
  | succ depth ih =>
    intro s read hread
    cases s with
    | nil => cases hread
    | cons c rest =>
      rw [List.length_cons]
      by_cases hbrace : isChar c '\x7b'
      · rw [scanOnce_brace hbrace] at hread
        obtain ⟨-, hread⟩ := Except.seq_ok.mp hread
        obtain ⟨members, hmembers, hread⟩ := Except.bind_ok.mp hread
        obtain ⟨value, -, hread⟩ := Except.bind_ok.mp hread
        obtain rfl := Except.pure_ok.mp hread
        have hless := scanBetween_shortens (scanMember_shortens ih) rest members hmembers
        show members.2.length < rest.length + 1
        omega
      · by_cases hbracket : isChar c '['
        · rw [scanOnce_bracket hbracket] at hread
          obtain ⟨-, hread⟩ := Except.seq_ok.mp hread
          obtain ⟨items, hitems, hread⟩ := Except.bind_ok.mp hread
          obtain rfl := Except.pure_ok.mp hread
          have hless := scanBetween_shortens ih rest items hitems
          show items.2.length < rest.length + 1
          omega
        · exact (scanOnce_plain hbrace hbracket).shorter read hread

variable (hook) in
/-- The text opens more brackets, one in another, than there are levels, or leaves too few for what
is called for between two of them; and nothing before that is wrong. -/
inductive TooDeep : ℕ → PyStr → Prop
  | full {c : CodePoint} {rest : PyStr} : isChar c '\x7b' ∨ isChar c '[' → TooDeep 0 (c :: rest)
  | member {depth : ℕ} {c : CodePoint} {rest t key value : PyStr} : isChar c '\x7b' →
      Reaches (scanMember (scanOnce hook depth)) (skipBlank rest) t →
      scanKey t = .ok (key, value) → TooDeep depth value → TooDeep (depth + 1) (c :: rest)
  | call {depth : ℕ} {c : CodePoint} {rest : PyStr} : isChar c '\x7b' ∨ isChar c '[' →
      depth < hook.call (c :: rest) → TooDeep (depth + 1) (c :: rest)
  | item {depth : ℕ} {c : CodePoint} {rest t : PyStr} : isChar c '[' →
      Reaches (scanOnce hook depth) (skipBlank rest) t → TooDeep depth t →
      TooDeep (depth + 1) (c :: rest)

theorem scanMember_recursion {value : PyStr → Except LoadError (Loaded × PyStr)} {s : PyStr} :
    scanMember value s = .error .recursion ↔
      ∃ key rest, scanKey s = .ok (key, rest) ∧ value rest = .error .recursion := by
  rw [scanMember, Except.bind_error]
  constructor
  · rintro (hkey | ⟨⟨key, rest⟩, hkey, hvalue⟩)
    · exact absurd hkey (scanKey_plain s).flat
    · rcases Except.bind_error.mp hvalue with hvalue | ⟨read, -, hpure⟩
      · exact ⟨key, rest, hkey, hvalue⟩
      · cases hpure
  · rintro ⟨key, rest, hkey, hvalue⟩
    exact .inr ⟨(key, rest), hkey, Except.bind_error.mpr (.inl hvalue)⟩

/-- A closing bracket starts no value. -/
theorem scanOnce_close (h : isChar c ']') : scanOnce hook depth (c :: rest) = .error .value := by
  have hquote := isChar_ne (b := '"') (by decide) h
  have hbrace := isChar_ne (b := '\x7b') (by decide) h
  have hbracket := isChar_ne (b := '[') (by decide) h
  have hhead : constants.all fun constant => constant.1.head? ≠ some c := by
    rw [isChar_eq h]
    decide
  have hconstant : scanConstant (c :: rest) = none := by
    rw [scanConstant, List.findSome?_eq_none_iff]
    intro constant hmem
    refine if_neg fun hprefix => ?_
    have hne := of_decide_eq_true (List.all_eq_true.mp hhead constant hmem)
    obtain ⟨tail, htail⟩ := hprefix
    cases hword : constant.1 with
    | nil =>
      have hwords : ∀ constant ∈ constants, 0 < constant.1.length := by decide
      have hpos := hwords constant hmem
      rw [hword] at hpos
      exact absurd hpos (by decide)
    | cons d word =>
      rw [hword] at htail hne
      exact hne (congrArg some (List.cons.inj htail).1)
  have hminus := isChar_ne (b := '-') (by decide) h
  have hzero := isChar_ne (b := '0') (by decide) h
  have hdigit : isDigit c = false := by
    rw [isChar_eq h]
    decide
  rw [scanOnce_other hquote hbrace hbracket, hconstant, scanNumber]
  simp [hminus, integer, hzero, hdigit]

theorem scanKey_close (h : isChar c '\x7d') : scanKey (c :: rest) = .error .value :=
  if_neg (isChar_ne (by decide) h)

/-- Too few levels are left, or what comes after exhausts the stack. -/
theorem guarded_recursion {α : Type} {levels : ℕ} {x : Except LoadError α} :
    (guardThat (levels ≤ depth) LoadError.recursion >>= fun _ => x) = .error .recursion ↔
      depth < levels ∨ x = .error .recursion := by
  by_cases hcall : levels ≤ depth
  · rw [guardThat_pass hcall, Except.ok_bind]
    exact (or_iff_right (by omega)).symm
  · rw [guardThat, if_neg hcall]
    exact iff_of_true rfl (.inl (by omega))

/-- Only an opening bracket takes a level of the stack. -/
theorem opens_of_recursion (h : scanOnce hook depth (c :: rest) = .error .recursion) :
    isChar c '\x7b' ∨ isChar c '[' := by
  by_contra hopen
  obtain ⟨hbrace, hbracket⟩ := not_or.mp hopen
  exact (scanOnce_plain hbrace hbracket).flat h

/-- An object exhausts the stack where too little is left for it, or in one of its members. -/
theorem scanOnce_brace_recursion (hhook : ∀ members, hook.apply members ≠ .error .recursion)
    (hbrace : isChar c '\x7b') :
    scanOnce hook (depth + 1) (c :: rest) = .error .recursion ↔
      depth < hook.call (c :: rest) ∨
        ∃ t, Reaches (scanMember (scanOnce hook depth)) (skipBlank rest) t ∧
          scanMember (scanOnce hook depth) t = .error .recursion := by
  have hclose : '\x7d' ≠ ',' := by decide
  rw [scanOnce_brace hbrace, guarded_recursion, Except.bind_error, ← scanBetween_recursion
    (scanMember_shortens scanOnce_shortens) hclose rfl fun c rest hc => ?_]
  · refine or_congr_right (or_iff_left ?_)
    rintro ⟨read, -, hlater⟩
    rcases Except.bind_error.mp hlater with h | ⟨value, -, hpure⟩
    · exact hhook _ h
    · cases hpure
  · rw [scanMember, scanKey_close hc]
    rfl

/-- So does an array, or one of its items. -/
theorem scanOnce_bracket_recursion (hbracket : isChar c '[') :
    scanOnce hook (depth + 1) (c :: rest) = .error .recursion ↔
      depth < hook.call (c :: rest) ∨ ∃ t, Reaches (scanOnce hook depth) (skipBlank rest) t ∧
        scanOnce hook depth t = .error .recursion := by
  have hclose : ']' ≠ ',' := by decide
  rw [scanOnce_bracket hbracket, guarded_recursion, Except.bind_error,
    ← scanBetween_recursion scanOnce_shortens hclose scanOnce_nil fun c rest hc =>
      scanOnce_close hc]
  refine or_congr_right (or_iff_left ?_)
  rintro ⟨read, -, hpure⟩
  cases hpure

/-- The stack is exhausted by the texts that are too deep for it, and by no others. -/
theorem scanOnce_recursion (hhook : ∀ members, hook.apply members ≠ .error .recursion) {s : PyStr} :
    scanOnce hook depth s = .error .recursion ↔ TooDeep hook depth s := by
  induction depth generalizing s with
  | zero =>
    constructor
    · intro h
      cases s with
      | nil => cases h
      | cons c rest => exact .full (opens_of_recursion h)
    · rintro ⟨hopen⟩
      exact scanOnce_open hopen
  | succ depth ih =>
    constructor
    · intro h
      cases s with
      | nil => cases h
      | cons c rest =>
        rcases opens_of_recursion h with hbrace | hbracket
        · rcases (scanOnce_brace_recursion hhook hbrace).mp h with hcall | ⟨t, hreach, ht⟩
          · exact .call (.inl hbrace) hcall
          · obtain ⟨key, value, hkey, hvalue⟩ := scanMember_recursion.mp ht
            exact .member hbrace hreach hkey (ih.mp hvalue)
        · rcases (scanOnce_bracket_recursion hbracket).mp h with hcall | ⟨t, hreach, ht⟩
          · exact .call (.inr hbracket) hcall
          · exact .item hbracket hreach (ih.mp ht)
    · intro h
      cases h with
      | member hbrace hreach hkey hvalue =>
        exact (scanOnce_brace_recursion hhook hbrace).mpr
          (.inr ⟨_, hreach, scanMember_recursion.mpr ⟨_, _, hkey, ih.mpr hvalue⟩⟩)
      | call hopen hcall =>
        rcases hopen with hbrace | hbracket
        · exact (scanOnce_brace_recursion hhook hbrace).mpr (.inl hcall)
        · exact (scanOnce_bracket_recursion hbracket).mpr (.inl hcall)
      | item hbracket hreach ht =>
        exact (scanOnce_bracket_recursion hbracket).mpr (.inr ⟨_, hreach, ih.mpr ht⟩)

/-- So it is for a whole text. -/
theorem loads_recursion (hhook : ∀ members, hook.apply members ≠ .error .recursion)
    {raw : List Byte} :
    loads hook depth raw = .error .recursion ↔
      ∃ text, decodeText raw = some text ∧ TooDeep hook depth (skipBlank text) := by
  rw [loads]
  cases decodeText raw with
  | none => simp
  | some text =>
    show (scanOnce hook depth (skipBlank text) >>= fun read => guardThat (skipBlank read.2 = [])
      .value >>= fun _ => pure read.1) = _ ↔ _
    rw [Except.bind_error, scanOnce_recursion hhook]
    constructor
    · rintro (hdeep | ⟨read, -, hlater⟩)
      · exact ⟨text, rfl, hdeep⟩
      · rcases Except.bind_error.mp hlater with hguard | ⟨u, -, hpure⟩
        · exact absurd hguard (guardThat_ne_error (by decide))
        · cases hpure
    · rintro ⟨text', htext, hdeep⟩
      cases htext
      exact .inl hdeep

end Stack

end NokincFactory
