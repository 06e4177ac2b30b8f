/-
  File:      NokincFactory/Lib/Url.lean
  Subject:   Percent-encoding, as `urllib.parse.quote` does it, and pure POSIX paths.

  * `percentEncode`: a text with every character escaped that is neither unreserved nor safe;
  * `percentEncode_chars`: the characters that are left; `percentEncode_plain`: what has no escape
    stands as it was;
  * `segments_append`, `segments_percentEncode`: an address has the parts of what it was made of;
  * `posixParts`, `posixName`, `posixSuffix`: what `PurePosixPath` makes of a text.
-/
import NokincFactory.Lib.Bytes

namespace NokincFactory

/-! ## 1. Percent-encoding -/

/-- The characters that are never escaped. -/
def unreserved (c : Char) : Bool :=
  ('A' ≤ c && c ≤ 'Z') || ('a' ≤ c && c ≤ 'z') || ('0' ≤ c && c ≤ '9') ||
    c = '_' || c = '.' || c = '-' || c = '~'

def upperHex (n : ℕ) : Char := "0123456789ABCDEF".toList.getD n '0'

/-- A byte as `%XX`. -/
def percent (b : Byte) : List Char := ['%', upperHex (b.val / 16), upperHex (b.val % 16)]

/-- A code point in an address: itself, or the escapes of its bytes. -/
def percentChar (safe : List Char) (c : Fin 0x110000) : List Char :=
  if c.val < 128 ∧ (unreserved (Char.ofNat c.val) ∨ Char.ofNat c.val ∈ safe) then
    [Char.ofNat c.val]
  else (utf8Char c).flatMap percent

/-- `urllib.parse.quote`. -/
def percentEncode (safe : List Char) (text : List (Fin 0x110000)) : List Char :=
  text.flatMap (percentChar safe)

/-- `urllib.parse.quote_plus`, without safe characters. -/
def percentEncodePlus (text : List (Fin 0x110000)) : List Char :=
  text.flatMap fun c => if c.val = 32 then ['+'] else percentChar [] c

theorem upperHex_unreserved : ∀ n : Fin 16, unreserved (upperHex n.val) = true := by decide

theorem percent_chars {b : Byte} {c : Char} (h : c ∈ percent b) :
    c = '%' ∨ unreserved c = true := by
  have hb := b.isLt
  simp only [percent, List.mem_cons, List.not_mem_nil, or_false] at h
  rcases h with rfl | rfl | rfl
  · exact Or.inl rfl
  · exact Or.inr (upperHex_unreserved ⟨b.val / 16, by omega⟩)
  · exact Or.inr (upperHex_unreserved ⟨b.val % 16, by omega⟩)

theorem utf8Char_ne_nil (c : Fin 0x110000) : utf8Char c ≠ [] := by
  unfold utf8Char
  split
  · exact List.cons_ne_nil _ _
  · split
    · exact List.cons_ne_nil _ _
    · split
      · exact List.cons_ne_nil _ _
      · exact List.cons_ne_nil _ _

/-- What is left of a text are unreserved and safe characters, and the sign of the escapes. -/
theorem percentEncode_chars {safe : List Char} {text : List (Fin 0x110000)} {c : Char}
    (h : c ∈ percentEncode safe text) : c = '%' ∨ unreserved c = true ∨ c ∈ safe := by
  obtain ⟨d, -, hc⟩ := List.mem_flatMap.mp h
  unfold percentChar at hc
  split at hc
  · rename_i hkept
    obtain rfl := List.mem_singleton.mp hc
    exact Or.inr hkept.2
  · obtain ⟨b, -, hb⟩ := List.mem_flatMap.mp hc
    rcases percent_chars hb with hp | hu
    · exact Or.inl hp
    · exact Or.inr (Or.inl hu)

/-- An encoded text without escapes is the text. -/
theorem percentEncode_plain {safe : List Char} {point : Char → Fin 0x110000}
    (hpoint : ∀ c, (point c).val = c.toNat) {text : List Char}
    (h : '%' ∉ percentEncode safe (text.map point)) :
    percentEncode safe (text.map point) = text := by
  induction text with
  | nil => rfl
  | cons c text ih =>
      have hparts : percentEncode safe ((c :: text).map point) =
          percentChar safe (point c) ++ percentEncode safe (text.map point) := rfl
      rw [hparts] at h ⊢
      rw [List.mem_append, not_or] at h
      rw [ih h.2]
      have hchar : percentChar safe (point c) = [c] := by
        by_cases hkept : (point c).val < 128 ∧
            (unreserved (Char.ofNat (point c).val) ∨ Char.ofNat (point c).val ∈ safe)
        · unfold percentChar
          rw [if_pos hkept, hpoint, Char.ofNat_toNat]
        · refine absurd ?_ h.1
          unfold percentChar
          rw [if_neg hkept]
          obtain ⟨b, bytes, hb⟩ := List.exists_cons_of_ne_nil (utf8Char_ne_nil (point c))
          rw [hb]
          exact List.mem_cons_self
      rw [hchar]
      rfl

/-! ## 2. Parts -/

/-- A text in parts, at every slash. -/
def segments : List Char → List (List Char)
  | [] => [[]]
  | c :: cs =>
      if c = '/' then [] :: segments cs
      else match segments cs with
        | [] => [[c]]
        | part :: parts => (c :: part) :: parts

theorem segments_ne_nil (text : List Char) : segments text ≠ [] := by
  cases text with
  | nil => exact List.cons_ne_nil _ _
  | cons c text =>
      unfold segments
      split
      · exact List.cons_ne_nil _ _
      · split
        · exact List.cons_ne_nil _ _
        · exact List.cons_ne_nil _ _

theorem segments_slash (text : List Char) : segments ('/' :: text) = [] :: segments text := by
  rw [segments, if_pos rfl]

/-- A text without a slash joins the first part of what follows it. -/
theorem segments_join {lead text part : List Char} {parts : List (List Char)} (h : '/' ∉ lead)
    (htext : segments text = part :: parts) :
    segments (lead ++ text) = (lead ++ part) :: parts := by
  induction lead with
  | nil => exact htext
  | cons c lead ih =>
      rw [List.mem_cons, not_or] at h
      rw [List.cons_append, segments, if_neg (Ne.symm h.1), ih h.2]
      rfl

theorem segments_plain {text : List Char} (h : '/' ∉ text) : segments text = [text] := by
  have hjoined : segments (text ++ []) = [text ++ []] := segments_join h rfl
  rwa [List.append_nil] at hjoined

/-- Parts at both sides of a slash. -/
theorem segments_append (text text' : List Char) :
    segments (text ++ '/' :: text') = segments text ++ segments text' := by
  induction text with
  | nil => exact segments_slash text'
  | cons c text ih =>
      by_cases hc : c = '/'
      · rw [hc, List.cons_append, segments_slash, segments_slash, ih]
        rfl
      · obtain ⟨part, parts, hparts⟩ := List.exists_cons_of_ne_nil (segments_ne_nil text)
        rw [List.cons_append, segments, if_neg hc, ih, segments, if_neg hc, hparts]
        rfl

theorem slash_notMem_segments {text part : List Char} (h : part ∈ segments text) : '/' ∉ part := by
  induction text generalizing part with
  | nil =>
      rw [segments, List.mem_singleton] at h
      rw [h]
      exact List.not_mem_nil
  | cons c text ih =>
      by_cases hc : c = '/'
      · rw [hc, segments_slash] at h
        rcases List.mem_cons.mp h with rfl | h
        · exact List.not_mem_nil
        · exact ih h
      · obtain ⟨first, parts, hparts⟩ := List.exists_cons_of_ne_nil (segments_ne_nil text)
        rw [hparts] at ih
        rw [segments, if_neg hc, hparts] at h
        rcases List.mem_cons.mp h with rfl | h
        · rw [List.mem_cons, not_or]
          exact ⟨Ne.symm hc, ih List.mem_cons_self⟩
        · exact ih (List.mem_cons_of_mem _ h)

/-- A text is its parts with slashes between them. -/
theorem intercalate_segments (text : List Char) : ['/'].intercalate (segments text) = text := by
  induction text with
  | nil => rfl
  | cons c text ih =>
      obtain ⟨first, parts, hparts⟩ := List.exists_cons_of_ne_nil (segments_ne_nil text)
      rw [hparts] at ih
      by_cases hc : c = '/'
      · rw [hc, segments_slash, hparts, List.intercalate_cons_cons, ih]
        rfl
      · rw [segments, if_neg hc, hparts]
        cases parts with
        | nil =>
            rw [List.intercalate_singleton] at ih ⊢
            rw [ih]
        | cons next parts =>
            rw [List.intercalate_cons_cons] at ih ⊢
            rw [← ih]
            rfl

/-- Where the slash is safe, the parts are encoded one by one. -/
theorem segments_percentEncode {point : Char → Fin 0x110000}
    (hpoint : ∀ c, (point c).val = c.toNat) (text : List Char) :
    segments (percentEncode ['/'] (text.map point)) =
      (segments text).map fun part => percentEncode [] (part.map point) := by
  induction text with
  | nil => rfl
  | cons c text ih =>
      have hparts : percentEncode ['/'] ((c :: text).map point) =
          percentChar ['/'] (point c) ++ percentEncode ['/'] (text.map point) := rfl
      rw [hparts]
      by_cases hc : c = '/'
      · have hchar : percentChar ['/'] (point c) = ['/'] := by
          unfold percentChar
          rw [hpoint, hc, if_pos (by decide)]
          rfl
        rw [hchar, hc, segments_slash, List.singleton_append, segments_slash, ih]
        rfl
      · have hne : Char.ofNat (point c).val ≠ '/' := by
          rw [hpoint, Char.ofNat_toNat]
          exact hc
        have hchar : percentChar ['/'] (point c) = percentChar [] (point c) := by
          unfold percentChar
          simp only [List.mem_singleton, hne, List.not_mem_nil]
        obtain ⟨first, parts, hfirst⟩ := List.exists_cons_of_ne_nil (segments_ne_nil text)
        have hlead : '/' ∉ percentChar [] (point c) := fun hslash => by
          have hmem : '/' ∈ percentEncode [] [point c] :=
            List.mem_flatMap.mpr ⟨_, List.mem_singleton_self _, hslash⟩
          rcases percentEncode_chars hmem with h | h | h
          · exact absurd h (by decide)
          · exact absurd h (by decide)
          · cases h
        rw [hchar, segments, if_neg hc, hfirst]
        rw [hfirst] at ih
        rw [segments_join hlead ih]
        rfl

/-! ## 3. Pure POSIX paths -/

/-- The root of a path: two slashes at its start are a root of their own, three are one. -/
def posixRoot : List Char → List (List Char)
  | '/' :: '/' :: '/' :: _ => [['/']]
  | '/' :: '/' :: _ => [['/', '/']]
  | '/' :: _ => [['/']]
  | _ => []

/-- The parts after the root. -/
def posixTail (path : List Char) : List (List Char) :=
  (segments path).filter fun part => part ≠ [] ∧ part ≠ ['.']

/-- `PurePosixPath(path).parts`. -/
def posixParts (path : List Char) : List (List Char) := posixRoot path ++ posixTail path

/-- `PurePosixPath(path).is_absolute()`. -/
def posixAbsolute (path : List Char) : Bool := posixRoot path ≠ []

/-- `PurePosixPath(path).name`. -/
def posixName (path : List Char) : List Char := (posixTail path).getLastD []

/-- `PurePosixPath(path).suffix`: from the last dot of the name, unless that begins or ends it. -/
def posixSuffix (path : List Char) : List Char :=
  let name := posixName path
  let after := (name.reverse.takeWhile (· ≠ '.')).reverse
  if after.length + 1 < name.length ∧ after ≠ [] then '.' :: after else []

example : posixParts "src//app/./main.py".toList = ["src".toList, "app".toList, "main.py".toList] ∧
    posixSuffix "src/app/main.tar.gz".toList = ".gz".toList ∧ posixSuffix ".env".toList = [] := by
  decide

end NokincFactory
