/-
  File:      NokincFactory/Lib/FloatRepr.lean
  Subject:   The text of a double, as `float.__repr__` and `json` write it.

  A double is written with as few digits as are read back as the same double; where two decimals
  of so many digits are, with the nearer one. Below `1e16` and from `0.0001` on it is written with
  a point, otherwise with an exponent. Zero and the numbers that overflow have texts of their own.
  The sign is not part of it, and that seventeen digits are always enough is not shown here.

  * `Binary64.decimal`, `Binary64.shortest`: the digits;
  * `Binary64.decimalText`, `Binary64.reprText`: how they are written.
-/
import Mathlib.Data.List.DropRight
import NokincFactory.Lib.Binary64

namespace NokincFactory.Binary64

/-- The decimal of so many digits that is read back, the nearer one of two: its digits as a number,
and the power of ten that the last of them counts. -/
def decimal (q : ℚ) (count : ℕ) : Option (ℕ × ℤ) :=
  let last := Int.log 10 q - (count - 1)
  let nearest := roundHalfEven (q / 10 ^ last)
  let other := if q / 10 ^ last < nearest then nearest - 1 else nearest + 1
  ([nearest, other].find? fun n : ℤ => round (n * 10 ^ last) = q).map fun n => (n.toNat, last)

/-- The first of the decimals of one to seventeen digits. -/
def shortest (q : ℚ) : ℕ × ℤ := ((List.range 17).findSome? fun k => decimal q (k + 1)).getD (0, 0)

/-- Two digits of an exponent, or more. -/
def exponentText (n : ℕ) : List Char :=
  if n < 10 then '0' :: Nat.toDigits 10 n else Nat.toDigits 10 n

/-- Digits with their point, or with an exponent. -/
def decimalText (n : ℕ) (last : ℤ) : List Char :=
  let digits := (Nat.toDigits 10 n).rdropWhile (· = '0')
  let point := (Nat.toDigits 10 n).length + last
  if -4 < point ∧ point ≤ 0 then
    '0' :: '.' :: (List.replicate (-point).toNat '0' ++ digits)
  else if 0 < point ∧ point ≤ 16 then
    if digits.length ≤ point then
      digits ++ List.replicate (point.toNat - digits.length) '0' ++ ['.', '0']
    else digits.take point.toNat ++ '.' :: digits.drop point.toNat
  else digits.take 1 ++ (if digits.length = 1 then [] else '.' :: digits.drop 1) ++
    'e' :: (if point ≤ 0 then '-' else '+') :: exponentText (point - 1).natAbs

/-- The double nearest to a number that is not negative; an infinite one is a word of JSON. -/
def reprText (magnitude : ℚ) : List Char :=
  if (intOverflow : ℚ) ≤ magnitude then "Infinity".toList
  else if round magnitude = 0 then "0.0".toList
  else decimalText (shortest (round magnitude)).1 (shortest (round magnitude)).2

end NokincFactory.Binary64
