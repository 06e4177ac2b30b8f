/-
  File:      NokincFactory/Domain/PyStrings.lean
  Subject:   Methods of `str` that the checks of paths, files and tokens use.

  * `encodable`, `encodeAscii`: what has an encoding;
  * `base64Text`, `base64Bytes`: bytes as letters, without padding;
  * `splitAt`, `joinParts`: a string in parts; `joinParts_splitAt`: and together again;
  * `splitAt_part`, `splitAt_last`: the parts of what was joined.
-/
import NokincFactory.Domain.PyValue
import NokincFactory.Lib.Bytes

namespace NokincFactory

/-! ## 1. Methods -/

/-- A string that can be encoded, as a field with a length or a pattern asks for it. -/
def encodable (s : PyStr) : Bool := s.all fun c => c.val < 0xd800 || 0xe000 ≤ c.val

/-- A code point is a character of ASCII. -/
def isChar (c : CodePoint) (ascii : Char) : Bool := c.val = ascii.toNat

/-- `str.split` at a character. -/
def splitAt (sep : Char) : PyStr → List PyStr
  | [] => [[]]
  | c :: cs =>
    if isChar c sep then [] :: splitAt sep cs
    else match splitAt sep cs with
      | [] => [[c]]
      | part :: parts => (c :: part) :: parts

/-- `str.join` of some parts. -/
def joinParts (sep : Char) : List PyStr → PyStr
  | [] => []
  | [part] => part
  | part :: next :: parts => part ++ ⟨sep.toNat, toNat_codePoint sep⟩ :: joinParts sep (next :: parts)

/-- `str.encode("ascii")`. -/
def encodeAscii (s : PyStr) : Option (List Char) :=
  if s.all (·.val < 128) then some (s.map fun c => Char.ofNat c.val) else none

/-- `base64.urlsafe_b64encode(…).rstrip(b"=").decode("ascii")`. -/
def base64Text (bytes : List Byte) : PyStr := pyText (urlsafeEncode bytes)

/-- `base64.urlsafe_b64decode`, with the padding put back. -/
def base64Bytes (text : PyStr) : Option (List Byte) := (encodeAscii text).bind urlsafeDecode

/-! ## 2. Parts -/

theorem splitAt_ne_nil (sep : Char) : ∀ path : PyStr, splitAt sep path ≠ []
  | [] => List.cons_ne_nil _ _
  | c :: cs => by
      rw [splitAt]
      split
      · exact List.cons_ne_nil _ _
      · split <;> exact List.cons_ne_nil _ _

theorem isChar_eq {c : CodePoint} {a : Char} (h : isChar c a) : c = ⟨a.toNat, toNat_codePoint a⟩ :=
  Fin.ext (of_decide_eq_true h)

theorem isChar_ne {c : CodePoint} {a b : Char} (hab : a ≠ b) (h : isChar c a) : ¬ isChar c b := by
  intro hb
  have ha := of_decide_eq_true h
  have hb := of_decide_eq_true hb
  exact hab (Char.toNat_inj.mp (ha.symm.trans hb))

theorem joinParts_cons {sep : Char} {part : PyStr} {parts : List PyStr} (h : parts ≠ []) :
    joinParts sep (part :: parts) =
      part ++ ⟨sep.toNat, toNat_codePoint sep⟩ :: joinParts sep parts := by
  cases parts with
  | nil => exact absurd rfl h
  | cons next parts => rfl

/-- A path is its parts joined. -/
theorem joinParts_splitAt (sep : Char) : ∀ path : PyStr, joinParts sep (splitAt sep path) = path
  | [] => rfl
  | c :: cs => by
      have ih := joinParts_splitAt sep cs
      have hne := splitAt_ne_nil sep cs
      rw [splitAt]
      by_cases hc : isChar c sep
      · rw [if_pos hc, joinParts_cons hne, ih, isChar_eq hc]
        rfl
      · rw [if_neg hc]
        cases hparts : splitAt sep cs with
        | nil => exact absurd hparts hne
        | cons part parts =>
          rw [hparts] at ih
          show joinParts sep ((c :: part) :: parts) = c :: cs
          cases parts with
          | nil =>
            rw [← ih]
            rfl
          | cons next parts =>
            rw [← ih, joinParts_cons (List.cons_ne_nil _ _), joinParts_cons (List.cons_ne_nil _ _)]
            rfl

/-- A part without separators is split off. -/
theorem splitAt_part {sep : Char} {part : PyStr} (h : ∀ c ∈ part, ¬ isChar c sep) (rest : PyStr) :
    splitAt sep (part ++ ⟨sep.toNat, toNat_codePoint sep⟩ :: rest) = part :: splitAt sep rest := by
  induction part with
  | nil => exact if_pos (decide_eq_true rfl)
  | cons c part ih =>
    rw [List.cons_append, splitAt, if_neg (h c List.mem_cons_self),
      ih fun d hd => h d (List.mem_cons_of_mem _ hd)]

theorem splitAt_last {sep : Char} {part : PyStr} (h : ∀ c ∈ part, ¬ isChar c sep) :
    splitAt sep part = [part] := by
  induction part with
  | nil => rfl
  | cons c part ih =>
    rw [splitAt, if_neg (h c List.mem_cons_self), ih fun d hd => h d (List.mem_cons_of_mem _ hd)]

theorem splitAt_injective (sep : Char) : Function.Injective (splitAt sep) := by
  intro s t h
  rw [← joinParts_splitAt sep s, h, joinParts_splitAt]

/-! ## 3. Encodings -/

theorem encodable_append (s t : PyStr) : encodable (s ++ t) = (encodable s && encodable t) :=
  List.all_append

theorem encodable_pyText (cs : List Char) : encodable (pyText cs) = true := by
  rw [encodable, List.all_eq_true]
  intro c hc
  obtain ⟨d, -, rfl⟩ := List.mem_map.mp hc
  rcases d.valid with hlow | ⟨hhigh, -⟩
  · have hlow : d.toNat < 0xd800 := hlow
    simp [hlow]
  · have hhigh : 0xdfff < d.toNat := hhigh
    simp only [Bool.or_eq_true, decide_eq_true_eq]
    omega

/-- Letters of ASCII are encoded as they are. -/
theorem encodeAscii_pyText {cs : List Char} (h : ∀ c ∈ cs, c.toNat < 128) :
    encodeAscii (pyText cs) = some cs := by
  have hall : (pyText cs).all (·.val < 128) = true := by
    rw [List.all_eq_true]
    intro c hc
    obtain ⟨d, hd, rfl⟩ := List.mem_map.mp hc
    exact decide_eq_true (h d hd)
  rw [encodeAscii, if_pos hall, pyText, List.map_map]
  refine congrArg some ((List.map_congr_left fun c _ => ?_).trans (List.map_id cs))
  exact Char.ofNat_toNat c

/-- The letters of base64 are ASCII, and no separators. -/
theorem base64_letter {bytes : List Byte} {c : CodePoint} (h : c ∈ base64Text bytes) :
    ∃ a ∈ urlsafeLetters, c = ⟨a.toNat, toNat_codePoint a⟩ ∧ a.toNat < 128 ∧ ¬ isChar c '.' := by
  have hall : urlsafeLetters.all fun a => a.toNat < 128 && a.toNat ≠ 46 := by decide +kernel
  obtain ⟨a, ha, rfl⟩ := List.mem_map.mp h
  obtain ⟨g, -, rfl⟩ := List.mem_map.mp ha
  have hletter := (urlsafeLetters_back g).1
  have hshape := List.all_eq_true.mp hall _ hletter
  simp only [Bool.and_eq_true, decide_eq_true_eq] at hshape
  exact ⟨_, hletter, rfl, hshape.1, fun hdot => hshape.2 (of_decide_eq_true hdot)⟩

theorem base64Bytes_base64Text (bytes : List Byte) : base64Bytes (base64Text bytes) = some bytes := by
  have hascii : ∀ a ∈ urlsafeEncode bytes, a.toNat < 128 := by
    intro a ha
    obtain ⟨b, -, heq, hb, -⟩ := base64_letter (List.mem_map.mpr ⟨a, ha, rfl⟩)
    exact Fin.mk.inj heq ▸ hb
  rw [base64Bytes, base64Text, encodeAscii_pyText hascii]
  exact urlsafeDecode_encode bytes

theorem base64Text_ne_nil {a b : Byte} {bytes : List Byte} : base64Text (a :: b :: bytes) ≠ [] := by
  cases bytes with
  | nil => exact List.cons_ne_nil _ _
  | cons c bytes => exact List.cons_ne_nil _ _

end NokincFactory
