/-
  File:      NokincFactory/Domain/PyValue.lean
  Subject:   `json.dumps(value, sort_keys=True, separators=(",", ":"))` with its defaults.

  A Python `str` is a list of code points, and surrogates are code points. The encoder writes
  ASCII: whatever is not printable ASCII is escaped by its UTF-16 units, so that a character
  beyond the basic plane and the two surrogates of its pair have one text.

  * `PyStr`, `utf16`: strings and their UTF-16 form;
  * `asciiCode`: the escapes, which can be read back unit by unit;
  * `PyValue`, `PyValue.sorted`, `PyValue.encode`, `PyValue.dumps`: the values, members in key
    order, and the text;
  * `PyValue.dumps_eq`: two values have one text iff they are one value in UTF-16;
  * `hex_injective`: the hexadecimal digest tells the digest.
-/
import Mathlib.Data.List.Lex
import NokincFactory.Domain.Json
import NokincFactory.Lib.Bytes
import NokincFactory.Lib.Digits
import NokincFactory.Lib.JsonText

namespace NokincFactory

/-! ## 1. Strings -/

/-- What a `str` is made of. -/
abbrev CodePoint := Fin 0x110000

abbrev PyStr := List CodePoint

instance lawfulPyStr : LawfulBEq PyStr := inferInstance

theorem toNat_codePoint (c : Char) : c.toNat < 0x110000 := by
  rcases c.valid with h | h
  · exact Nat.lt_trans h (by decide)
  · exact h.2

/-- A text of characters. -/
def pyText (cs : List Char) : PyStr := cs.map fun c => ⟨c.toNat, toNat_codePoint c⟩

def pyStr (s : String) : PyStr := pyText s.toList

abbrev Utf16Unit := Fin 0x10000

/-- The UTF-16 units of a code point: a surrogate pair beyond the basic plane. -/
def units (c : CodePoint) : List Utf16Unit :=
  if h : c.val < 0x10000 then [⟨c.val, h⟩]
  else [⟨0xd800 + (c.val - 0x10000) / 1024, by omega⟩, ⟨0xdc00 + (c.val - 0x10000) % 1024, by omega⟩]

def utf16 (s : PyStr) : List Utf16Unit := s.flatMap units

/-- No high surrogate stands directly before a low one. -/
def Unpaired (s : PyStr) : Prop :=
  s.IsChain fun c d => ¬ ((0xd800 ≤ c.val ∧ c.val < 0xdc00) ∧ (0xdc00 ≤ d.val ∧ d.val < 0xe000))

theorem Unpaired.tail {c : CodePoint} {s : PyStr} (h : Unpaired (c :: s)) : Unpaired s := by
  cases s with
  | nil => exact .nil
  | cons d s => exact (List.isChain_cons_cons.mp h).2

/-- A string that goes on with the low half of a pair starts with a low surrogate. -/
theorem low_of_utf16 {s : PyStr} {u : Utf16Unit} {rest : List Utf16Unit}
    (hu : 0xdc00 ≤ u.val ∧ u.val < 0xe000) (h : utf16 s = u :: rest) :
    ∃ d s', s = d :: s' ∧ 0xdc00 ≤ d.val ∧ d.val < 0xe000 := by
  cases s with
  | nil => cases h
  | cons d s' =>
      refine ⟨d, s', rfl, ?_⟩
      unfold utf16 units at h
      by_cases hd : d.val < 0x10000
      · rw [List.flatMap_cons, dif_pos hd] at h
        have hval := congrArg Fin.val (List.cons.inj h).1
        simp only at hval
        omega
      · rw [List.flatMap_cons, dif_neg hd] at h
        have hval := congrArg Fin.val (List.cons.inj h).1
        have hlt := d.isLt
        simp only at hval
        omega

/-- Surrogates that are not paired are told from the pairs of characters. -/
theorem utf16_injective : ∀ {s t : PyStr}, Unpaired s → Unpaired t → utf16 s = utf16 t → s = t
  | [], t, _, _, h => by
      cases t with
      | nil => rfl
      | cons d t =>
          unfold utf16 units at h
          by_cases hd : d.val < 0x10000
          · rw [List.flatMap_cons, dif_pos hd] at h
            cases h
          · rw [List.flatMap_cons, dif_neg hd] at h
            cases h
  | c :: s, [], _, _, h => by
      unfold utf16 units at h
      by_cases hc : c.val < 0x10000
      · rw [List.flatMap_cons, dif_pos hc] at h
        cases h
      · rw [List.flatMap_cons, dif_neg hc] at h
        cases h
  | c :: s, d :: t, hs, ht, h => by
      have hcl := c.isLt
      have hdl := d.isLt
      unfold utf16 at h
      rw [List.flatMap_cons, List.flatMap_cons] at h
      by_cases hc : c.val < 0x10000
      · by_cases hd : d.val < 0x10000
        · unfold units at h
          rw [dif_pos hc, dif_pos hd] at h
          obtain ⟨hunit, htail⟩ := List.cons.inj h
          obtain rfl : c = d := Fin.ext (Fin.mk.inj hunit)
          rw [utf16_injective hs.tail ht.tail htail]
        · rw [units, dif_pos hc, units, dif_neg hd] at h
          obtain ⟨hunit, htail⟩ := List.cons.inj h
          have hhigh := Fin.mk.inj hunit
          obtain ⟨e, s', rfl, hlow⟩ := low_of_utf16 (by simp only; omega) htail
          exact absurd ⟨by omega, hlow⟩ (List.isChain_cons_cons.mp hs).1
      · by_cases hd : d.val < 0x10000
        · rw [units, dif_neg hc, units, dif_pos hd] at h
          obtain ⟨hunit, htail⟩ := List.cons.inj h
          have hhigh := Fin.mk.inj hunit
          obtain ⟨e, t', rfl, hlow⟩ := low_of_utf16 (by simp only; omega) htail.symm
          exact absurd ⟨by omega, hlow⟩ (List.isChain_cons_cons.mp ht).1
        · rw [units, dif_neg hc, units, dif_neg hd] at h
          obtain ⟨hhigh, h⟩ := List.cons.inj h
          obtain ⟨hlow, htail⟩ := List.cons.inj h
          have hhigh := Fin.mk.inj hhigh
          have hlow := Fin.mk.inj hlow
          obtain rfl : c = d := Fin.ext (by omega)
          rw [utf16_injective hs.tail ht.tail htail]

/-- Characters are no surrogates. -/
theorem unpaired_pyText (cs : List Char) : Unpaired (pyText cs) := by
  induction cs with
  | nil => exact .nil
  | cons c cs ih =>
      cases cs with
      | nil => exact .singleton _
      | cons d cs =>
          refine .cons_cons (fun ⟨⟨hlow, hhigh⟩, _⟩ => ?_) ih
          rcases c.valid with h | h
          · exact absurd (Nat.lt_of_le_of_lt hlow h) (by decide)
          · exact absurd (Nat.lt_trans h.1 hhigh) (by decide)

/-! ## 2. Escapes -/

/-- `\uXXXX`. -/
def unicodeEscape (n : ℕ) : List Char :=
  ['\\', 'u', Json.hexDigit (n / 4096), Json.hexDigit (n / 256 % 16), Json.hexDigit (n / 16 % 16),
    Json.hexDigit (n % 16)]

/-- One unit of a string literal, as `ensure_ascii=True` writes it. -/
def escapeUnit (u : Utf16Unit) : List Char :=
  if u.val = 34 then ['\\', '"']
  else if u.val = 92 then ['\\', '\\']
  else if u.val = 10 then ['\\', 'n']
  else if u.val = 13 then ['\\', 'r']
  else if u.val = 9 then ['\\', 't']
  else if u.val = 12 then ['\\', 'f']
  else if u.val = 8 then ['\\', 'b']
  else if 32 ≤ u.val ∧ u.val ≤ 126 then [Char.ofNat u.val]
  else unicodeEscape u.val

/-- The value of a hexadecimal digit. -/
def hexValue (c : Char) : ℕ := "0123456789abcdef".toList.idxOf c

/-- The unit behind a backslash and one character. -/
def controlValue (c : Char) : ℕ :=
  if c = 'n' then 10 else if c = 'r' then 13 else if c = 't' then 9 else if c = 'f' then 12
  else if c = 'b' then 8 else c.toNat

/-- The first unit of the body of a string literal, and the rest. -/
def unescapeUnit : List Char → Option (Utf16Unit × List Char)
  | '\\' :: 'u' :: a :: b :: c :: d :: rest =>
      some (Fin.ofNat _ (hexValue a * 4096 + hexValue b * 256 + hexValue c * 16 + hexValue d), rest)
  | '\\' :: c :: rest => some (Fin.ofNat _ (controlValue c), rest)
  | c :: rest => some (Fin.ofNat _ c.toNat, rest)
  | [] => none

theorem hexValue_hexDigit {n : ℕ} (h : n < 16) : hexValue (Json.hexDigit n) = n := by
  revert n
  decide

theorem unescape_unicodeEscape (u : Utf16Unit) (rest : List Char) :
    unescapeUnit (unicodeEscape u.val ++ rest) = some (u, rest) := by
  have hu := u.isLt
  show some (Fin.ofNat _ _, rest) = some (u, rest)
  rw [hexValue_hexDigit (by omega), hexValue_hexDigit (by omega), hexValue_hexDigit (by omega),
    hexValue_hexDigit (by omega)]
  have hsum : u.val / 4096 * 4096 + u.val / 256 % 16 * 256 + u.val / 16 % 16 * 16 + u.val % 16 =
      u.val := by omega
  rw [hsum]
  simp

theorem unescape_plain {c : Char} (h : c ≠ '\\') (rest : List Char) :
    unescapeUnit (c :: rest) = some (Fin.ofNat _ c.toNat, rest) := by
  unfold unescapeUnit
  split
  · next heq => exact absurd (List.cons.inj heq).1 h
  · next heq => exact absurd (List.cons.inj heq).1 h
  · next heq =>
      obtain ⟨rfl, rfl⟩ := List.cons.inj heq
      rfl
  · next heq => cases heq

theorem char_of_printable {n : ℕ} (h : n < 127) :
    (Char.ofNat n).toNat = n ∧ (Char.ofNat n = '\\' → n = 92) ∧ (Char.ofNat n = '"' → n = 34) := by
  revert n
  decide

theorem unescape_printable {u : Utf16Unit} (h : 32 ≤ u.val ∧ u.val ≤ 126) (hne : u.val ≠ 92)
    (rest : List Char) : unescapeUnit (Char.ofNat u.val :: rest) = some (u, rest) := by
  obtain ⟨hnat, hchar, -⟩ := char_of_printable (Nat.lt_succ_of_le h.2)
  rw [unescape_plain (fun heq => hne (hchar heq)), hnat]
  simp

theorem unescape_escapeUnit (u : Utf16Unit) (rest : List Char) :
    unescapeUnit (escapeUnit u ++ rest) = some (u, rest) := by
  have heq : ∀ n, (hn : n < 0x10000) → u.val = n → (Fin.ofNat 0x10000 n) = u := by
    intro n hn h
    apply Fin.ext
    rw [h]
    exact Nat.mod_eq_of_lt hn
  unfold escapeUnit
  split_ifs with h1 h2 h3 h4 h5 h6 h7 h8
  · exact congrArg (fun v => some (v, rest)) (heq 34 (by decide) h1)
  · exact congrArg (fun v => some (v, rest)) (heq 92 (by decide) h2)
  · exact congrArg (fun v => some (v, rest)) (heq 10 (by decide) h3)
  · exact congrArg (fun v => some (v, rest)) (heq 13 (by decide) h4)
  · exact congrArg (fun v => some (v, rest)) (heq 9 (by decide) h5)
  · exact congrArg (fun v => some (v, rest)) (heq 12 (by decide) h6)
  · exact congrArg (fun v => some (v, rest)) (heq 8 (by decide) h7)
  · exact unescape_printable h8 h2 rest
  · exact unescape_unicodeEscape u rest

theorem escapeUnit_unquoted (u : Utf16Unit) : ∃ c cs, escapeUnit u = c :: cs ∧ c ≠ '"' := by
  unfold escapeUnit
  split_ifs with h1 h2 h3 h4 h5 h6 h7 h8
  · exact ⟨_, _, rfl, by decide⟩
  · exact ⟨_, _, rfl, by decide⟩
  · exact ⟨_, _, rfl, by decide⟩
  · exact ⟨_, _, rfl, by decide⟩
  · exact ⟨_, _, rfl, by decide⟩
  · exact ⟨_, _, rfl, by decide⟩
  · exact ⟨_, _, rfl, by decide⟩
  · exact ⟨_, _, rfl, fun heq => h1 ((char_of_printable (Nat.lt_succ_of_le h8.2)).2.2 heq)⟩
  · exact ⟨_, _, rfl, by decide⟩

/-- The string literals of `ensure_ascii=True`. -/
def asciiCode : StringCode Utf16Unit where
  escape := escapeUnit
  unescape := unescapeUnit
  unescape_escape := unescape_escapeUnit
  unquoted := escapeUnit_unquoted

/-! ## 3. Values -/

/-- A finite `float`, by its `repr`. -/
structure PyFloat where
  repr : NumberText
  marked : '.' ∈ repr.chars ∨ 'e' ∈ repr.chars

/-- What `json.loads` gives of JSON. -/
inductive PyValue where
  | none
  | bool (value : Bool)
  | int (value : Int)
  | float (value : PyFloat)
  | str (value : PyStr)
  | list (items : List PyValue)
  | dict (members : List (PyStr × PyValue))

theorem numberChar_of_isDigit {c : Char} (h : c.isDigit = true) : numberChar c = true := by
  unfold numberChar
  rw [h]
  rfl

theorem intText_shape (n : Int) : ∀ c ∈ Json.intText n, numberChar c = true := by
  intro c hc
  cases n with
  | ofNat k =>
      exact numberChar_of_isDigit (Nat.isDigit_of_mem_toDigits (by decide) (by decide) hc)
  | negSucc k =>
      rcases List.mem_cons.mp hc with rfl | hc
      · decide
      · exact numberChar_of_isDigit (Nat.isDigit_of_mem_toDigits (by decide) (by decide) hc)

theorem intText_nonempty (n : Int) : Json.intText n ≠ [] := by
  cases n with
  | ofNat k => exact Nat.toDigits_ne_nil
  | negSucc k => exact List.cons_ne_nil _ _

/-- `int.__repr__`. -/
def intNumber (n : Int) : NumberText := ⟨Json.intText n, intText_nonempty n, intText_shape n⟩

theorem toDigits_injective {m n : ℕ} (h : Nat.toDigits 10 m = Nat.toDigits 10 n) : m = n := by
  rw [← Nat.ofDigitChars_ten_toDigits (n := m), h, Nat.ofDigitChars_ten_toDigits]

theorem intText_injective : Function.Injective Json.intText := by
  have hne : ∀ k cs, Nat.toDigits 10 k ≠ '-' :: cs := by
    intro k cs h
    have hdigit := Nat.isDigit_of_mem_toDigits (by decide) (by decide)
      (h ▸ List.mem_cons_self : '-' ∈ Nat.toDigits 10 k)
    cases hdigit
  intro m n h
  cases m with
  | ofNat j =>
      cases n with
      | ofNat k => exact congrArg Int.ofNat (toDigits_injective h)
      | negSucc k => exact absurd h (hne j _)
  | negSucc j =>
      cases n with
      | ofNat k => exact absurd h.symm (hne k _)
      | negSucc k =>
          have hsucc := toDigits_injective (List.cons.inj h).2
          exact congrArg Int.negSucc (Nat.succ.inj hsucc)

namespace PyValue

/-- The order of `sort_keys`. -/
abbrev keyLe {α : Type} (a b : PyStr × α) : Prop := a.1 ≤ b.1

mutual
/-- The members of every dict in key order (`sort_keys`). -/
def sorted : PyValue → PyValue
  | list items => list (sortedItems items)
  | dict members => dict ((sortedMembers members).insertionSort keyLe)
  | none => none
  | bool b => bool b
  | int n => int n
  | float x => float x
  | str s => str s

def sortedItems : List PyValue → List PyValue
  | [] => []
  | v :: vs => sorted v :: sortedItems vs

def sortedMembers : List (PyStr × PyValue) → List (PyStr × PyValue)
  | [] => []
  | (k, v) :: ms => (k, sorted v) :: sortedMembers ms
end

mutual
/-- What the encoder writes of a value: strings by their UTF-16 units. -/
def encode : PyValue → JsonTree Utf16Unit
  | none => .null
  | bool b => .bool b
  | int n => .num (intNumber n)
  | float x => .num x.repr
  | str s => .str (utf16 s)
  | list items => .arr (encodeItems items)
  | dict members => .obj (encodeMembers members)

def encodeItems : List PyValue → List (JsonTree Utf16Unit)
  | [] => []
  | v :: vs => encode v :: encodeItems vs

def encodeMembers : List (PyStr × PyValue) → List (List Utf16Unit × JsonTree Utf16Unit)
  | [] => []
  | (k, v) :: ms => (utf16 k, encode v) :: encodeMembers ms
end

/-- `sys.get_int_max_str_digits()`. -/
def maxStrDigits : ℕ := 4300

mutual
/-- Every integer has few enough digits to be written. -/
def printable : PyValue → Bool
  | int n => (Nat.toDigits 10 n.natAbs).length ≤ maxStrDigits
  | list items => printableItems items
  | dict members => printableMembers members
  | _ => true

def printableItems : List PyValue → Bool
  | [] => true
  | v :: vs => printable v && printableItems vs

def printableMembers : List (PyStr × PyValue) → Bool
  | [] => true
  | (_, v) :: ms => printable v && printableMembers ms
end

/-- `json.dumps(value, sort_keys=True, separators=(",", ":"))`. -/
def dumps (v : PyValue) : List Char := JsonTree.render asciiCode v.sorted.encode

/-- One text is one value in UTF-16. -/
theorem dumps_eq {v w : PyValue} : v.dumps = w.dumps ↔ v.sorted.encode = w.sorted.encode := by
  constructor
  · intro h
    exact JsonTree.render_injective asciiCode h
  · intro h
    unfold dumps
    rw [h]

end PyValue

/-! ## 4. Texts and digests -/

theorem pyText_injective : Function.Injective pyText := by
  refine List.map_injective_iff.mpr fun c d h => ?_
  exact Char.toNat_inj.mp (Fin.mk.inj h)

theorem hexDigit_injective : ∀ x < 16, ∀ y < 16, Json.hexDigit x = Json.hexDigit y → x = y := by
  intro x hx y hy h
  rw [← hexValue_hexDigit hx, ← hexValue_hexDigit hy, h]

theorem hex_injective : Function.Injective Digest.hex := by
  intro d e h
  have hbits : d.bits.toNat = e.bits.toNat :=
    eq_of_map_digits (k := 64) (by decide) hexDigit_injective
      (d.bits.isLt.trans_le (by decide)) (e.bits.isLt.trans_le (by decide)) h
  cases d
  cases e
  exact congrArg Digest.mk (BitVec.eq_of_toNat_eq hbits)

end NokincFactory
