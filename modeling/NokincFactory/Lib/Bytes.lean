/-
  File:      NokincFactory/Lib/Bytes.lean
  Subject:   Texts as bytes, and bytes as texts.

  A text is a list of code points; surrogates are code points, and the decoders let them pass.

  * `utf8`, `decodeUtf8`: UTF-8; `decodeUtf8_utf8`: what was encoded is decoded;
  * `utf8_decodeUtf8`: what was decoded has the bytes it was decoded from;
  * `decodeUtf16`, `decodeUtf32`: the other forms;
  * `sextets`, `octets`: the groups of base64; `octets_sextets`: and back;
  * `b64encode`, `b64decode`, `urlsafeEncode`, `urlsafeDecode`: these groups in letters.
-/
import Mathlib.Algebra.Order.Ring.Nat
import Mathlib.Data.List.Basic

namespace NokincFactory

abbrev Byte := Fin 256

instance zeroByte : NeZero 256 := ⟨by decide⟩

instance zeroCodePoint : NeZero 0x110000 := ⟨by decide⟩

/-! ## 1. UTF-8 -/

/-- The bytes of a code point. -/
def utf8Char (c : Fin 0x110000) : List Byte :=
  if c.val < 0x80 then [Fin.ofNat _ c.val]
  else if c.val < 0x800 then [Fin.ofNat _ (0xc0 + c.val / 64), Fin.ofNat _ (0x80 + c.val % 64)]
  else if c.val < 0x10000 then
    [Fin.ofNat _ (0xe0 + c.val / 4096), Fin.ofNat _ (0x80 + c.val / 64 % 64),
      Fin.ofNat _ (0x80 + c.val % 64)]
  else
    [Fin.ofNat _ (0xf0 + c.val / 262144), Fin.ofNat _ (0x80 + c.val / 4096 % 64),
      Fin.ofNat _ (0x80 + c.val / 64 % 64), Fin.ofNat _ (0x80 + c.val % 64)]

def utf8 (text : List (Fin 0x110000)) : List Byte := text.flatMap utf8Char

/-- A byte that goes on with a character. -/
def continues (b : Byte) : Bool := 0x80 ≤ b.val && b.val < 0xc0

/-- The text behind some bytes, if they are UTF-8. -/
def decodeUtf8 : List Byte → Option (List (Fin 0x110000))
  | [] => some []
  | a :: rest =>
    if a.val < 0x80 then (decodeUtf8 rest).map (Fin.ofNat _ a.val :: ·)
    else match rest with
      | [] => none
      | b :: rest =>
        if 0xc2 ≤ a.val ∧ a.val < 0xe0 ∧ continues b then
          (decodeUtf8 rest).map (Fin.ofNat _ ((a.val - 0xc0) * 64 + (b.val - 0x80)) :: ·)
        else match rest with
          | [] => none
          | c :: rest =>
            let three := (a.val - 0xe0) * 4096 + (b.val - 0x80) * 64 + (c.val - 0x80)
            if 0xe0 ≤ a.val ∧ a.val < 0xf0 ∧ continues b ∧ continues c ∧ 0x800 ≤ three then
              (decodeUtf8 rest).map (Fin.ofNat _ three :: ·)
            else match rest with
              | [] => none
              | d :: rest =>
                let four := (a.val - 0xf0) * 262144 + (b.val - 0x80) * 4096 +
                  (c.val - 0x80) * 64 + (d.val - 0x80)
                if 0xf0 ≤ a.val ∧ a.val < 0xf5 ∧ continues b ∧ continues c ∧ continues d ∧
                    0x10000 ≤ four ∧ four < 0x110000 then
                  (decodeUtf8 rest).map (Fin.ofNat _ four :: ·)
                else none

theorem byte_val {n : ℕ} (h : n < 256) : (Fin.ofNat 256 n).val = n := Nat.mod_eq_of_lt h

theorem codePoint_eq {n : ℕ} {c : Fin 0x110000} (h : n = c.val) : Fin.ofNat _ n = c :=
  Fin.ext ((Nat.mod_eq_of_lt (h ▸ c.isLt)).trans h)

theorem decodeUtf8_char (c : Fin 0x110000) (rest : List Byte) :
    decodeUtf8 (utf8Char c ++ rest) = (decodeUtf8 rest).map (c :: ·) := by
  have hc := c.isLt
  by_cases h1 : c.val < 0x80
  · have ha := byte_val (n := c.val) (by omega)
    rw [utf8Char, if_pos h1, List.cons_append, List.nil_append, decodeUtf8.eq_def]
    simp only [ha]
    rw [if_pos h1, codePoint_eq (c := c) rfl]
  · by_cases h2 : c.val < 0x800
    · have ha := byte_val (n := 0xc0 + c.val / 64) (by omega)
      have hb := byte_val (n := 0x80 + c.val % 64) (by omega)
      rw [utf8Char, if_neg h1, if_pos h2]
      simp only [List.cons_append, List.nil_append]
      rw [decodeUtf8.eq_def]
      simp only [ha, hb, continues]
      rw [if_neg (by omega), if_pos (by simp; omega), codePoint_eq (c := c) (by omega)]
    · by_cases h3 : c.val < 0x10000
      · have ha := byte_val (n := 0xe0 + c.val / 4096) (by omega)
        have hb := byte_val (n := 0x80 + c.val / 64 % 64) (by omega)
        have hd := byte_val (n := 0x80 + c.val % 64) (by omega)
        rw [utf8Char, if_neg h1, if_neg h2, if_pos h3]
        simp only [List.cons_append, List.nil_append]
        rw [decodeUtf8.eq_def]
        simp only [ha, hb, hd, continues]
        rw [if_neg (by omega), if_neg (by omega), if_pos (by simp; omega),
          codePoint_eq (c := c) (by omega)]
      · have ha := byte_val (n := 0xf0 + c.val / 262144) (by omega)
        have hb := byte_val (n := 0x80 + c.val / 4096 % 64) (by omega)
        have hd := byte_val (n := 0x80 + c.val / 64 % 64) (by omega)
        have he := byte_val (n := 0x80 + c.val % 64) (by omega)
        rw [utf8Char, if_neg h1, if_neg h2, if_neg h3]
        simp only [List.cons_append, List.nil_append]
        rw [decodeUtf8.eq_def]
        simp only [ha, hb, hd, he, continues]
        rw [if_neg (by omega), if_neg (by omega), if_neg (by omega), if_pos (by simp; omega),
          codePoint_eq (c := c) (by omega)]

/-- What was encoded is decoded. -/
theorem decodeUtf8_utf8 (text : List (Fin 0x110000)) : decodeUtf8 (utf8 text) = some text := by
  induction text with
  | nil => rfl
  | cons c text ih =>
    rw [utf8, List.flatMap_cons, decodeUtf8_char, ← utf8, ih]
    rfl

theorem utf8_injective : Function.Injective utf8 := by
  intro s t h
  have hdecoded := congrArg decodeUtf8 h
  rw [decodeUtf8_utf8, decodeUtf8_utf8] at hdecoded
  exact Option.some.inj hdecoded

theorem byte_eq {n : ℕ} {b : Byte} (h : n = b.val) : Fin.ofNat 256 n = b :=
  Fin.ext ((Nat.mod_eq_of_lt (h ▸ b.isLt)).trans h)

theorem utf8_cons (c : Fin 0x110000) (text : List (Fin 0x110000)) :
    utf8 (c :: text) = utf8Char c ++ utf8 text := rfl

theorem codePoint_val {n : ℕ} (h : n < 0x110000) : (Fin.ofNat 0x110000 n).val = n :=
  Nat.mod_eq_of_lt h

theorem continues_iff {b : Byte} : continues b = true ↔ 0x80 ≤ b.val ∧ b.val < 0xc0 := by
  simp [continues]

/-! The bytes of the code point that one step of the decoder reads. -/

theorem utf8Char_one {a : Byte} (ha : a.val < 0x80) : utf8Char (Fin.ofNat _ a.val) = [a] := by
  have hc := codePoint_val (n := a.val) (by omega)
  rw [utf8Char, hc, if_pos ha, byte_eq (b := a) rfl]

theorem utf8Char_two {a b : Byte} (ha : 0xc2 ≤ a.val ∧ a.val < 0xe0)
    (hb : 0x80 ≤ b.val ∧ b.val < 0xc0) :
    utf8Char (Fin.ofNat _ ((a.val - 0xc0) * 64 + (b.val - 0x80))) = [a, b] := by
  have hc := codePoint_val (n := (a.val - 0xc0) * 64 + (b.val - 0x80)) (by omega)
  rw [utf8Char, hc, if_neg (by omega), if_pos (by omega), byte_eq (b := a) (by omega),
    byte_eq (b := b) (by omega)]

theorem utf8Char_three {a b c : Byte} (ha : 0xe0 ≤ a.val ∧ a.val < 0xf0)
    (hb : 0x80 ≤ b.val ∧ b.val < 0xc0) (hc : 0x80 ≤ c.val ∧ c.val < 0xc0)
    (hlong : 0x800 ≤ (a.val - 0xe0) * 4096 + (b.val - 0x80) * 64 + (c.val - 0x80)) :
    utf8Char (Fin.ofNat _ ((a.val - 0xe0) * 4096 + (b.val - 0x80) * 64 + (c.val - 0x80))) =
      [a, b, c] := by
  have hcode := codePoint_val
    (n := (a.val - 0xe0) * 4096 + (b.val - 0x80) * 64 + (c.val - 0x80)) (by omega)
  rw [utf8Char, hcode, if_neg (by omega), if_neg (by omega), if_pos (by omega),
    byte_eq (b := a) (by omega), byte_eq (b := b) (by omega), byte_eq (b := c) (by omega)]

theorem utf8Char_four {a b c d : Byte} (ha : 0xf0 ≤ a.val ∧ a.val < 0xf5)
    (hb : 0x80 ≤ b.val ∧ b.val < 0xc0) (hc : 0x80 ≤ c.val ∧ c.val < 0xc0)
    (hd : 0x80 ≤ d.val ∧ d.val < 0xc0)
    (hlong : 0x10000 ≤ (a.val - 0xf0) * 262144 + (b.val - 0x80) * 4096 +
      (c.val - 0x80) * 64 + (d.val - 0x80))
    (hlast : (a.val - 0xf0) * 262144 + (b.val - 0x80) * 4096 +
      (c.val - 0x80) * 64 + (d.val - 0x80) < 0x110000) :
    utf8Char (Fin.ofNat _ ((a.val - 0xf0) * 262144 + (b.val - 0x80) * 4096 +
      (c.val - 0x80) * 64 + (d.val - 0x80))) = [a, b, c, d] := by
  have hcode := codePoint_val hlast
  rw [utf8Char, hcode, if_neg (by omega), if_neg (by omega), if_neg (by omega),
    byte_eq (b := a) (by omega), byte_eq (b := b) (by omega), byte_eq (b := c) (by omega),
    byte_eq (b := d) (by omega)]

/-- A decoded text has been decoded from its own bytes. -/
theorem utf8_decodeUtf8 {bytes : List Byte} {text : List (Fin 0x110000)}
    (h : decodeUtf8 bytes = some text) : utf8 text = bytes := by
  induction bytes using decodeUtf8.induct generalizing text with
  | case1 =>
    rw [decodeUtf8] at h
    cases h
    rfl
  | case2 a rest h1 ih =>
    rw [decodeUtf8.eq_def] at h
    simp only [h1, if_true] at h
    obtain ⟨more, hmore, rfl⟩ := Option.map_eq_some_iff.mp h
    rw [utf8_cons, ih hmore, utf8Char_one h1]
    rfl
  | case3 a h1 =>
    rw [decodeUtf8.eq_def] at h
    simp only [h1, if_false] at h
    cases h
  | case4 a h1 b rest h2 ih =>
    rw [decodeUtf8.eq_def] at h
    simp only [h1, if_false, h2, and_self, if_true] at h
    obtain ⟨more, hmore, rfl⟩ := Option.map_eq_some_iff.mp h
    rw [utf8_cons, ih hmore, utf8Char_two ⟨h2.1, h2.2.1⟩ (continues_iff.mp h2.2.2)]
    rfl
  | case5 a h1 b h2 =>
    rw [decodeUtf8.eq_def] at h
    simp only [h1, if_false, h2] at h
    cases h
  | case6 a h1 b h2 c rest three h3 =>
    rename_i ih
    rw [decodeUtf8.eq_def] at h
    simp only [h1, if_false, h2] at h
    rw [if_pos h3] at h
    obtain ⟨more, hmore, rfl⟩ := Option.map_eq_some_iff.mp h
    rw [utf8_cons, ih hmore, utf8Char_three ⟨h3.1, h3.2.1⟩ (continues_iff.mp h3.2.2.1)
      (continues_iff.mp h3.2.2.2.1) h3.2.2.2.2]
    rfl
  | case7 a h1 b h2 c three =>
    rename_i h3
    rw [decodeUtf8.eq_def] at h
    simp only [h1, if_false, h2] at h
    rw [if_neg h3] at h
    cases h
  | case8 a h1 b h2 c three h3 d rest four h4 =>
    rename_i ih
    rw [decodeUtf8.eq_def] at h
    simp only [h1, if_false, h2] at h
    rw [if_neg h3, if_pos h4] at h
    obtain ⟨more, hmore, rfl⟩ := Option.map_eq_some_iff.mp h
    rw [utf8_cons, ih hmore, utf8Char_four ⟨h4.1, h4.2.1⟩ (continues_iff.mp h4.2.2.1)
      (continues_iff.mp h4.2.2.2.1) (continues_iff.mp h4.2.2.2.2.1) h4.2.2.2.2.2.1
      h4.2.2.2.2.2.2]
    rfl
  | case9 a h1 b h2 c three h3 d rest four =>
    rename_i h4
    rw [decodeUtf8.eq_def] at h
    simp only [h1, if_false, h2] at h
    rw [if_neg h3, if_neg h4] at h
    cases h
/-! ## 2. Other forms -/

/-- The text behind units of 16 bits: a pair of surrogates is one character. -/
def decodeUnits : List ℕ → List (Fin 0x110000)
  | [] => []
  | [u] => [Fin.ofNat _ u]
  | u :: v :: rest =>
    if 0xd800 ≤ u ∧ u < 0xdc00 ∧ 0xdc00 ≤ v ∧ v < 0xe000 then
      Fin.ofNat _ (0x10000 + (u - 0xd800) * 1024 + (v - 0xdc00)) :: decodeUnits rest
    else Fin.ofNat _ u :: decodeUnits (v :: rest)

/-- Numbers of two bytes. -/
def pairs (big : Bool) : List Byte → Option (List ℕ)
  | [] => some []
  | [_] => none
  | a :: b :: rest =>
      (pairs big rest).map ((if big then a.val * 256 + b.val else b.val * 256 + a.val) :: ·)

def decodeUtf16 (big : Bool) (bytes : List Byte) : Option (List (Fin 0x110000)) :=
  (pairs big bytes).map decodeUnits

def decodeUtf32 (big : Bool) : List Byte → Option (List (Fin 0x110000))
  | [] => some []
  | a :: b :: c :: d :: rest =>
    let n := if big then ((a.val * 256 + b.val) * 256 + c.val) * 256 + d.val
      else ((d.val * 256 + c.val) * 256 + b.val) * 256 + a.val
    if h : n < 0x110000 then (decodeUtf32 big rest).map (⟨n, h⟩ :: ·) else none
  | _ => none

/-! ## 3. Base64 -/

/-- The groups of six bits, the last one filled up with zeros. -/
def sextets : List Byte → List (Fin 64)
  | [] => []
  | [a] => [Fin.ofNat _ (a.val / 4), Fin.ofNat _ (a.val % 4 * 16)]
  | [a, b] =>
      [Fin.ofNat _ (a.val / 4), Fin.ofNat _ (a.val % 4 * 16 + b.val / 16),
        Fin.ofNat _ (b.val % 16 * 4)]
  | a :: b :: c :: rest =>
      Fin.ofNat _ (a.val / 4) :: Fin.ofNat _ (a.val % 4 * 16 + b.val / 16) ::
        Fin.ofNat _ (b.val % 16 * 4 + c.val / 64) :: Fin.ofNat _ (c.val % 64) :: sextets rest

/-- The bytes of groups of six bits; what is left of the last group is dropped. -/
def octets : List (Fin 64) → Option (List Byte)
  | [] => some []
  | [_] => none
  | [p, q] => some [Fin.ofNat _ (p.val * 4 + q.val / 16)]
  | [p, q, r] =>
      some [Fin.ofNat _ (p.val * 4 + q.val / 16), Fin.ofNat _ (q.val % 16 * 16 + r.val / 4)]
  | p :: q :: r :: s :: rest =>
      (octets rest).map fun bytes =>
        Fin.ofNat _ (p.val * 4 + q.val / 16) :: Fin.ofNat _ (q.val % 16 * 16 + r.val / 4) ::
          Fin.ofNat _ (r.val % 4 * 64 + s.val) :: bytes

theorem sextet_val {n : ℕ} (h : n < 64) : (Fin.ofNat 64 n).val = n := Nat.mod_eq_of_lt h

theorem octets_sextets : ∀ bytes : List Byte, octets (sextets bytes) = some bytes
  | [] => rfl
  | [a] => by
      have ha := a.isLt
      have hp := sextet_val (n := a.val / 4) (by omega)
      have hq := sextet_val (n := a.val % 4 * 16) (by omega)
      rw [sextets, octets, hp, hq, byte_eq (b := a) (by omega)]
  | [a, b] => by
      have ha := a.isLt
      have hb := b.isLt
      have hp := sextet_val (n := a.val / 4) (by omega)
      have hq := sextet_val (n := a.val % 4 * 16 + b.val / 16) (by omega)
      have hr := sextet_val (n := b.val % 16 * 4) (by omega)
      rw [sextets, octets, hp, hq, hr, byte_eq (b := a) (by omega), byte_eq (b := b) (by omega)]
  | a :: b :: c :: rest => by
      have ha := a.isLt
      have hb := b.isLt
      have hc := c.isLt
      have hp := sextet_val (n := a.val / 4) (by omega)
      have hq := sextet_val (n := a.val % 4 * 16 + b.val / 16) (by omega)
      have hr := sextet_val (n := b.val % 16 * 4 + c.val / 64) (by omega)
      have hs := sextet_val (n := c.val % 64) (by omega)
      rw [sextets, octets, octets_sextets rest, hp, hq, hr, hs, byte_eq (b := a) (by omega),
        byte_eq (b := b) (by omega), byte_eq (b := c) (by omega)]
      rfl

/-- The letters of base64, the last two of which differ between its forms. -/
def letters (last : List Char) : List Char :=
  "ABCDEFGHIJKLMNOPQRSTUVWXYZabcdefghijklmnopqrstuvwxyz0123456789".toList ++ last

def standardLetters : List Char := letters ['+', '/']

def urlsafeLetters : List Char := letters ['-', '_']

/-- The groups behind some letters. -/
def fromLetters (letters : List Char) (text : List Char) : Option (List (Fin 64)) :=
  text.mapM fun c => if c ∈ letters then some (Fin.ofNat _ (letters.idxOf c)) else none

def toLetters (letters : List Char) (groups : List (Fin 64)) : List Char :=
  groups.map fun g => letters.getD g.val '='

theorem fromLetters_toLetters {letters : List Char}
    (hletters : ∀ g : Fin 64, letters.getD g.val '=' ∈ letters ∧
      Fin.ofNat 64 (letters.idxOf (letters.getD g.val '=')) = g) (groups : List (Fin 64)) :
    fromLetters letters (toLetters letters groups) = some groups := by
  induction groups with
  | nil => rfl
  | cons g groups ih =>
    rw [toLetters, List.map_cons, fromLetters, List.mapM_cons, if_pos (hletters g).1,
      (hletters g).2, ← toLetters, ← fromLetters, ih]
    rfl

theorem urlsafeLetters_back : ∀ g : Fin 64, urlsafeLetters.getD g.val '=' ∈ urlsafeLetters ∧
    Fin.ofNat 64 (urlsafeLetters.idxOf (urlsafeLetters.getD g.val '=')) = g := by decide +kernel

/-- The signs that fill up the last group of letters. -/
def padding (count : ℕ) : List Char := List.replicate ((4 - count % 4) % 4) '='

/-- `base64.b64encode`. -/
def b64encode (bytes : List Byte) : List Char :=
  toLetters standardLetters (sextets bytes) ++ padding (sextets bytes).length

/-- `base64.b64decode` with `validate=True`. -/
def b64decode (text : List Char) : Option (List Byte) :=
  let data := text.takeWhile (· ≠ '=')
  if text = data ++ padding data.length then (fromLetters standardLetters data).bind octets
  else none

/-- `base64.urlsafe_b64encode` without the signs at its end. -/
def urlsafeEncode (bytes : List Byte) : List Char := toLetters urlsafeLetters (sextets bytes)

/-- `base64.urlsafe_b64decode`, with the signs at its end put back. -/
def urlsafeDecode (text : List Char) : Option (List Byte) :=
  (fromLetters urlsafeLetters text).bind octets

theorem urlsafeDecode_encode (bytes : List Byte) :
    urlsafeDecode (urlsafeEncode bytes) = some bytes := by
  rw [urlsafeDecode, urlsafeEncode, fromLetters_toLetters urlsafeLetters_back]
  exact octets_sextets bytes

end NokincFactory
