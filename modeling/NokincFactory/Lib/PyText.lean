/-
  File:      NokincFactory/Lib/PyText.lean
  Subject:   Python's methods on strings, as functions on lists of characters.

  * `splitLines`, `joinLines`: `str.splitlines` and `"\n".join`;
  * `removePrefix`, `contains`, `afterLast`: `removeprefix`, `in` and `rsplit(c, 1)[-1]`.
-/
import Mathlib.Data.List.Basic
import Mathlib.Data.List.Infix

namespace NokincFactory

/-- The characters `str.splitlines` ends a line at. -/
def lineBreak (c : Char) : Bool :=
  let n := c.toNat
  (10 ≤ n && n ≤ 13) || (28 ≤ n && n ≤ 30) || n = 0x85 || n = 0x2028 || n = 0x2029

/-- `str.splitlines`, with the line that has begun: `\r\n` ends one line, and an end of line at
the end of the text begins no other. -/
def splitLines : List Char → List Char → List (List Char)
  | [], [] => []
  | line, [] => [line.reverse]
  | line, '\r' :: '\n' :: cs => line.reverse :: splitLines [] cs
  | line, c :: cs => if lineBreak c then line.reverse :: splitLines [] cs else splitLines (c :: line) cs

example : splitLines [] "a\r\nb\n\nc".toList = [['a'], ['b'], [], ['c']] := by decide +kernel

/-- `"\n".join`. -/
def joinLines : List (List Char) → List Char := fun lines => (lines.intersperse ['\n']).flatten

/-- `str.removeprefix`. -/
def removePrefix (lead text : List Char) : List Char :=
  if lead.isPrefixOf text then text.drop lead.length else text

/-- `part in text`. -/
def contains (part text : List Char) : Bool := text.tails.any part.isPrefixOf

/-- `text.rsplit(c, 1)[-1]`: what follows the last `c`. -/
def afterLast (c : Char) (text : List Char) : List Char :=
  (text.reverse.takeWhile (· ≠ c)).reverse

theorem afterLast_append {c : Char} {lead text : List Char} (h : c ∉ text) :
    afterLast c (lead ++ c :: text) = text := by
  unfold afterLast
  rw [List.reverse_append, List.reverse_cons, List.append_assoc, List.singleton_append,
    List.takeWhile_append_of_pos, List.takeWhile_cons_of_neg, List.append_nil, List.reverse_reverse]
  · simp
  · intro d hd
    rw [List.mem_reverse] at hd
    exact decide_eq_true fun hdc => h (hdc ▸ hd)

end NokincFactory
