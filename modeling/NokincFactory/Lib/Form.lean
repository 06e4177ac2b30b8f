/-
  File:      NokincFactory/Lib/Form.lean
  Subject:   Forms in an address or a body, as `urllib.parse.urlencode` writes them.

  * `urlencode`: the fields of a form as one text;
  * `unquotePlus`, `readForm`: the bytes behind a field, and the fields behind a text;
  * `readForm_urlencode`: what was written is read, whatever the names and values.
-/
import Mathlib.Data.List.Basic
import NokincFactory.Lib.Url

namespace NokincFactory

/-! ## 1. Fields -/

/-- The number of a hexadecimal digit of an escape. -/
def upperHexValue (c : Char) : Option ℕ :=
  let digits := "0123456789ABCDEF".toList
  if c ∈ digits then some (digits.idxOf c) else none

/-- The bytes behind a field: escapes are undone, and a plus is a blank. -/
def unquotePlus : List Char → Option (List Byte)
  | [] => some []
  | '+' :: rest => (unquotePlus rest).map (32 :: ·)
  | '%' :: high :: low :: rest =>
      match upperHexValue high, upperHexValue low with
      | some high, some low => (unquotePlus rest).map (Fin.ofNat _ (high * 16 + low) :: ·)
      | _, _ => none
  | c :: rest => if c.toNat < 128 then (unquotePlus rest).map (Fin.ofNat _ c.toNat :: ·) else none

theorem upperHexValue_upperHex : ∀ n : Fin 16, upperHexValue (upperHex n.val) = some n.val := by
  decide

/-- An escape is undone. -/
theorem unquotePlus_percent (b : Byte) (rest : List Char) :
    unquotePlus (percent b ++ rest) = (unquotePlus rest).map (b :: ·) := by
  have hb := b.isLt
  have hhigh := upperHexValue_upperHex ⟨b.val / 16, by omega⟩
  have hlow := upperHexValue_upperHex ⟨b.val % 16, by omega⟩
  have hbyte : b.val / 16 * 16 + b.val % 16 = b.val := Nat.div_add_mod' b.val 16
  show unquotePlus ('%' :: upperHex (b.val / 16) :: upperHex (b.val % 16) :: rest) = _
  rw [unquotePlus, hhigh, hlow]
  show (unquotePlus rest).map (Fin.ofNat 256 (b.val / 16 * 16 + b.val % 16) :: ·) = _
  rw [byte_eq hbyte]

theorem unquotePlus_percents (bytes : List Byte) (rest : List Char) :
    unquotePlus (bytes.flatMap percent ++ rest) = (unquotePlus rest).map (bytes ++ ·) := by
  induction bytes with
  | nil => exact (Option.map_id_fun' ▸ rfl : unquotePlus rest = (unquotePlus rest).map fun x => x)
  | cons b bytes ih =>
      rw [List.flatMap_cons, List.append_assoc, unquotePlus_percent, ih, Option.map_map]
      rfl

/-- A character that is not escaped stands for itself. -/
theorem unquotePlus_unreserved {c : Char} (hc : unreserved c = true) (hsmall : c.toNat < 128)
    (rest : List Char) :
    unquotePlus (c :: rest) = (unquotePlus rest).map (Fin.ofNat _ c.toNat :: ·) := by
  have hplus : c ≠ '+' := fun h => by
    rw [h] at hc
    exact absurd hc (by decide)
  have hpercent : c ≠ '%' := fun h => by
    rw [h] at hc
    exact absurd hc (by decide)
  rw [unquotePlus.eq_4 _ _ hplus fun _ _ _ h => absurd h hpercent, if_pos hsmall]

/-- The bytes behind an encoded text are those of the text. -/
theorem unquotePlus_percentEncodePlus (text : List (Fin 0x110000)) :
    unquotePlus (percentEncodePlus text) = some (utf8 text) := by
  induction text with
  | nil => rfl
  | cons c text ih =>
      have hparts : percentEncodePlus (c :: text) =
          (if c.val = 32 then ['+'] else percentChar [] c) ++ percentEncodePlus text := rfl
      rw [hparts, utf8_cons]
      by_cases hblank : c.val = 32
      · obtain rfl : c = ⟨32, by decide⟩ := Fin.ext hblank
        rw [if_pos rfl, List.singleton_append, unquotePlus, ih]
        rfl
      · rw [if_neg hblank]
        unfold percentChar
        by_cases hkept : c.val < 128 ∧
            (unreserved (Char.ofNat c.val) = true ∨ Char.ofNat c.val ∈ ([] : List Char))
        · have hvalid : c.val.isValidChar := Or.inl (Nat.lt_trans hkept.1 (by decide))
          have hchar : (Char.ofNat c.val).toNat = c.val := by
            unfold Char.ofNat
            rw [dif_pos hvalid]
            rfl
          have hunreserved := hkept.2.resolve_right List.not_mem_nil
          rw [if_pos hkept, List.singleton_append,
            unquotePlus_unreserved hunreserved (hchar.symm ▸ hkept.1), ih, hchar]
          have hone : utf8Char c = [Fin.ofNat _ c.val] := if_pos hkept.1
          rw [hone]
          rfl
        · rw [if_neg hkept, unquotePlus_percents, ih]
          rfl

/-! ## 2. Forms -/

/-- A name with its value. -/
def formField (field : List (Fin 0x110000) × List (Fin 0x110000)) : List Char :=
  percentEncodePlus field.1 ++ '=' :: percentEncodePlus field.2

/-- `urllib.parse.urlencode`. -/
def urlencode (fields : List (List (Fin 0x110000) × List (Fin 0x110000))) : List Char :=
  ['&'].intercalate (fields.map formField)

/-- The text behind an encoded one. -/
def readText (text : List Char) : Option (List (Fin 0x110000)) := (unquotePlus text).bind decodeUtf8

def readField (text : List Char) : Option (List (Fin 0x110000) × List (Fin 0x110000)) :=
  match readText (text.takeWhile (· ≠ '=')), readText ((text.dropWhile (· ≠ '=')).drop 1) with
  | some name, some value => some (name, value)
  | _, _ => none

/-- The fields behind a text. -/
def readForm (text : List Char) : Option (List (List (Fin 0x110000) × List (Fin 0x110000))) :=
  (text.splitOn '&').mapM readField

/-- An encoded text has no character but these. -/
theorem percentEncodePlus_chars {text : List (Fin 0x110000)} {c : Char}
    (h : c ∈ percentEncodePlus text) : c = '+' ∨ c = '%' ∨ unreserved c = true := by
  obtain ⟨d, -, hc⟩ := List.mem_flatMap.mp h
  split at hc
  · exact Or.inl (List.mem_singleton.mp hc)
  · have hmem : c ∈ percentEncode [] [d] := List.mem_flatMap.mpr ⟨d, List.mem_singleton_self d, hc⟩
    rcases percentEncode_chars hmem with hp | hu | hs
    · exact Or.inr (Or.inl hp)
    · exact Or.inr (Or.inr hu)
    · cases hs

theorem notMem_percentEncodePlus {text : List (Fin 0x110000)} {c : Char} (hplus : c ≠ '+')
    (hpercent : c ≠ '%') (hother : unreserved c = false) : c ∉ percentEncodePlus text := by
  intro h
  rcases percentEncodePlus_chars h with h | h | h
  · exact hplus h
  · exact hpercent h
  · rw [hother] at h
    cases h

theorem readText_percentEncodePlus (text : List (Fin 0x110000)) :
    readText (percentEncodePlus text) = some text := by
  unfold readText
  rw [unquotePlus_percentEncodePlus]
  exact decodeUtf8_utf8 text

theorem readField_formField (field : List (Fin 0x110000) × List (Fin 0x110000)) :
    readField (formField field) = some field := by
  have hname : ∀ c ∈ percentEncodePlus field.1, decide (c ≠ '=') = true := fun c hc =>
    decide_eq_true fun h => notMem_percentEncodePlus (by decide) (by decide) (by decide) (h ▸ hc)
  unfold readField formField
  rw [List.takeWhile_append_of_pos hname, List.dropWhile_append_of_pos hname,
    List.takeWhile_cons_of_neg (by simp), List.dropWhile_cons_of_neg (by simp), List.append_nil,
    List.drop_one, List.tail_cons, readText_percentEncodePlus, readText_percentEncodePlus]

theorem ampersand_notMem_formField (field : List (Fin 0x110000) × List (Fin 0x110000)) :
    '&' ∉ formField field := by
  intro h
  unfold formField at h
  rw [List.mem_append, List.mem_cons] at h
  rcases h with hname | hsign | hvalue
  · exact notMem_percentEncodePlus (by decide) (by decide) (by decide) hname
  · exact absurd hsign (by decide)
  · exact notMem_percentEncodePlus (by decide) (by decide) (by decide) hvalue

/-- **Forms** are read as they were written. -/
theorem readForm_urlencode {fields : List (List (Fin 0x110000) × List (Fin 0x110000))}
    (hfields : fields ≠ []) : readForm (urlencode fields) = some fields := by
  have hfree : ∀ text ∈ fields.map formField, '&' ∉ text := by
    intro text htext
    obtain ⟨field, -, rfl⟩ := List.mem_map.mp htext
    exact ampersand_notMem_formField field
  unfold readForm urlencode
  rw [List.splitOn_intercalate '&' hfree (by simpa using hfields), List.mapM_map]
  clear hfree hfields
  induction fields with
  | nil => rfl
  | cons field fields ih =>
      rw [List.mapM_cons, Function.comp_apply, readField_formField, ih]
      rfl

example : urlencode [([97], [98, 32, 233]), ([99], [38])] = "a=b+%C3%A9&c=%26".toList := by decide

end NokincFactory
