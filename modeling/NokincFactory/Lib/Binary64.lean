/-
  File:      NokincFactory/Lib/Binary64.lean
  Subject:   IEEE binary64 rounding on exact rationals.

  A finite double is a rational; the arithmetic of doubles is exact arithmetic
  followed by `Binary64.round` (to nearest, ties to even, gradual underflow).
  Overflow to infinity is not part of `round`: it is asked for separately, where
  an operation can overflow (`Binary64.ofInt?`).

  * `Binary64.le_roundHalfEven`, `Binary64.roundHalfEven_le`: rounding to an integer does
    not cross an integer;
  * `Binary64.le_round`, `Binary64.round_le`: rounding to a double does not cross an
    integer below `2 ^ 53`; `Binary64.round_int`: such integers are doubles;
  * `Binary64.round_neg`: a negative rational in the normal range stays negative;
  * `Binary64.abs_round_sub_le`: rounding moves a rational by half of the last place at most;
  * `Binary64.ofInt?`: an integer as a double, `none` where the conversion overflows.
-/
import Mathlib.Data.Int.Log
import Mathlib.Data.Rat.Floor
import Mathlib.Tactic.Linarith
import Mathlib.Tactic.NormNum
import Mathlib.Tactic.Positivity
import Mathlib.Tactic.FieldSimp

namespace NokincFactory.Binary64

/-- The integer nearest to `q`; halfway between two integers, the even one. -/
def roundHalfEven (q : ℚ) : ℤ :=
  let below := ⌊q⌋
  if q - below < 1 / 2 then below
  else if 1 / 2 < q - below then below + 1
  else below + below % 2

theorem le_roundHalfEven {n : ℤ} {q : ℚ} (h : (n : ℚ) ≤ q) : n ≤ roundHalfEven q := by
  have hn : n ≤ ⌊q⌋ := Int.le_floor.mpr h
  have h2 : 0 ≤ ⌊q⌋ % 2 := Int.emod_nonneg _ (by norm_num)
  unfold roundHalfEven
  dsimp only
  split_ifs
  · exact hn
  · omega
  · omega

theorem roundHalfEven_le {n : ℤ} {q : ℚ} (h : q ≤ n) : roundHalfEven q ≤ n := by
  unfold roundHalfEven
  dsimp only
  rcases h.lt_or_eq with hlt | rfl
  · have hn : ⌊q⌋ + 1 ≤ n := Int.floor_lt.mpr hlt
    have h2 : ⌊q⌋ % 2 < 2 := Int.emod_lt_of_pos _ (by norm_num)
    split_ifs
    · omega
    · omega
    · omega
  · simp

/-- The exponent of the last place of a double next to `q`: 53 significant bits, and
    no place below `2 ^ (-1074)`. -/
def lastPlace (q : ℚ) : ℤ := max (Int.log 2 |q| - 52) (-1074)

/-- The double nearest to `q`. -/
def round (q : ℚ) : ℚ := roundHalfEven (q / 2 ^ lastPlace q) * 2 ^ lastPlace q

theorem place_pos (e : ℤ) : (0 : ℚ) < 2 ^ e := zpow_pos (by norm_num) e

/-- With a fraction place, the integer `n` is a whole number of last places. -/
theorem int_places {e : ℤ} (he : e ≤ 0) (n : ℤ) : ∃ m : ℤ, (m : ℚ) * 2 ^ e = n := by
  obtain ⟨k, rfl⟩ : ∃ k : ℕ, e = -(k : ℤ) := ⟨e.natAbs, by omega⟩
  refine ⟨n * 2 ^ k, ?_⟩
  push_cast
  rw [mul_assoc, zpow_neg, zpow_natCast, mul_inv_cancel₀ (by positivity), mul_one]

/-- Above the fraction places a rational is at least `2 ^ 53` large. -/
theorem large_of_place {q : ℚ} (he : 0 < lastPlace q) : (2 : ℚ) ^ (52 + lastPlace q) ≤ |q| := by
  have hlog : lastPlace q = Int.log 2 |q| - 52 := by
    unfold lastPlace at he ⊢
    omega
  have hq : 0 < |q| := by
    rcases (abs_nonneg q).lt_or_eq with h | h
    · exact h
    · rw [hlog, ← h, Int.log_zero_right] at he
      omega
  have := Int.zpow_log_le_self (b := 2) (by norm_num) hq
  rw [hlog]
  have h52 : 52 + (Int.log 2 |q| - 52) = Int.log 2 |q| := by omega
  rw [h52]
  exact_mod_cast this

theorem two_pow_53_le {e : ℤ} (he : 0 < e) : (2 : ℚ) ^ (53 : ℕ) ≤ 2 ^ (52 + e) := by
  rw [← zpow_natCast]
  exact zpow_le_zpow_right₀ (by norm_num) (by push_cast; omega)

/-- Rounding does not fall below an integer of at most 53 bits. -/
theorem le_round {n : ℤ} {q : ℚ} (hn : |n| < 2 ^ 53) (h : (n : ℚ) ≤ q) : (n : ℚ) ≤ round q := by
  have hpos := place_pos (lastPlace q)
  have hn' : |(n : ℚ)| < 2 ^ 53 := by exact_mod_cast hn
  rcases le_or_gt (lastPlace q) 0 with he | he
  · obtain ⟨m, hm⟩ := int_places he n
    have hmq : (m : ℚ) ≤ q / 2 ^ lastPlace q := by
      rw [le_div_iff₀ hpos, hm]
      exact h
    have hr : (m : ℚ) ≤ roundHalfEven (q / 2 ^ lastPlace q) := by
      exact_mod_cast le_roundHalfEven hmq
    calc (n : ℚ) = m * 2 ^ lastPlace q := hm.symm
      _ ≤ round q := mul_le_mul_of_nonneg_right hr hpos.le
  · -- the last place is an integer above one, so `q` is beyond every 53-bit integer
    have hlarge := large_of_place he
    have h53 := two_pow_53_le he
    have hq : 0 < q := by
      by_contra hneg
      rw [abs_of_nonpos (not_lt.mp hneg)] at hlarge
      have := (abs_lt.mp hn').1
      linarith
    rw [abs_of_pos hq] at hlarge
    have hmq : ((2 ^ 52 : ℤ) : ℚ) ≤ q / 2 ^ lastPlace q := by
      rw [le_div_iff₀ hpos]
      refine le_trans (le_of_eq ?_) hlarge
      rw [zpow_add₀ (by norm_num)]
      norm_num
    have hr : ((2 ^ 52 : ℤ) : ℚ) ≤ roundHalfEven (q / 2 ^ lastPlace q) := by
      exact_mod_cast le_roundHalfEven hmq
    calc (n : ℚ) ≤ 2 ^ 53 := (abs_lt.mp hn').2.le
      _ ≤ 2 ^ (52 + lastPlace q) := h53
      _ = ((2 ^ 52 : ℤ) : ℚ) * 2 ^ lastPlace q := by
          rw [zpow_add₀ (by norm_num)]
          norm_num
      _ ≤ round q := mul_le_mul_of_nonneg_right hr hpos.le

/-- Rounding does not rise above an integer of at most 53 bits. -/
theorem round_le {n : ℤ} {q : ℚ} (hn : |n| < 2 ^ 53) (h : q ≤ n) : round q ≤ n := by
  have hpos := place_pos (lastPlace q)
  have hn' : |(n : ℚ)| < 2 ^ 53 := by exact_mod_cast hn
  rcases le_or_gt (lastPlace q) 0 with he | he
  · obtain ⟨m, hm⟩ := int_places he n
    have hmq : q / 2 ^ lastPlace q ≤ (m : ℚ) := by
      rw [div_le_iff₀ hpos, hm]
      exact h
    have hr : ((roundHalfEven (q / 2 ^ lastPlace q) : ℤ) : ℚ) ≤ m := by
      exact_mod_cast roundHalfEven_le hmq
    calc round q ≤ m * 2 ^ lastPlace q := mul_le_mul_of_nonneg_right hr hpos.le
      _ = n := hm
  · have hlarge := large_of_place he
    have h53 := two_pow_53_le he
    have hq : q < 0 := by
      by_contra hpq
      rw [abs_of_nonneg (not_lt.mp hpq)] at hlarge
      have := (abs_lt.mp hn').2
      linarith
    rw [abs_of_neg hq] at hlarge
    have hmq : q / 2 ^ lastPlace q ≤ ((-2 ^ 52 : ℤ) : ℚ) := by
      rw [div_le_iff₀ hpos]
      have : (2 : ℚ) ^ (52 + lastPlace q) = 2 ^ 52 * 2 ^ lastPlace q := by
        rw [zpow_add₀ (by norm_num)]
        norm_num
      push_cast
      linarith
    have hr : ((roundHalfEven (q / 2 ^ lastPlace q) : ℤ) : ℚ) ≤ ((-2 ^ 52 : ℤ) : ℚ) := by
      exact_mod_cast roundHalfEven_le hmq
    calc round q ≤ ((-2 ^ 52 : ℤ) : ℚ) * 2 ^ lastPlace q :=
          mul_le_mul_of_nonneg_right hr hpos.le
      _ = -(2 ^ (52 + lastPlace q)) := by
          rw [zpow_add₀ (by norm_num)]
          push_cast
          norm_num
      _ ≤ -(2 ^ 53) := neg_le_neg h53
      _ ≤ n := (abs_lt.mp hn').1.le

theorem round_int {n : ℤ} (hn : |n| < 2 ^ 53) : round n = n :=
  le_antisymm (round_le hn le_rfl) (le_round hn le_rfl)

/-- Rounding to an integer moves a rational by no more than a half. -/
theorem abs_roundHalfEven_sub_le (q : ℚ) : |(roundHalfEven q : ℚ) - q| ≤ 1 / 2 := by
  have hfloor := Int.floor_le q
  have hnext := Int.lt_floor_add_one q
  have heven : ⌊q⌋ % 2 = 0 ∨ ⌊q⌋ % 2 = 1 := Int.emod_two_eq_zero_or_one _
  unfold roundHalfEven
  dsimp only
  rw [abs_le]
  split_ifs with hbelow habove
  · constructor
    · linarith
    · linarith
  · push_cast
    constructor
    · linarith
    · linarith
  · -- halfway, where either neighbour is as near
    rcases heven with h | h
    · rw [h]
      push_cast
      constructor
      · linarith
      · linarith
    · rw [h]
      push_cast
      constructor
      · linarith
      · linarith

/-- Rounding to a double moves a rational by no more than half of the last place. -/
theorem abs_round_sub_le (q : ℚ) : |round q - q| ≤ 2 ^ lastPlace q / 2 := by
  have hpos := place_pos (lastPlace q)
  have hscale : round q - q =
      (roundHalfEven (q / 2 ^ lastPlace q) - q / 2 ^ lastPlace q) * 2 ^ lastPlace q := by
    rw [sub_mul, div_mul_cancel₀ _ hpos.ne']
    rfl
  rw [hscale, abs_mul, abs_of_pos hpos]
  calc |(roundHalfEven (q / 2 ^ lastPlace q) : ℚ) - q / 2 ^ lastPlace q| * 2 ^ lastPlace q
      ≤ 1 / 2 * 2 ^ lastPlace q :=
        mul_le_mul_of_nonneg_right (abs_roundHalfEven_sub_le _) hpos.le
    _ = 2 ^ lastPlace q / 2 := by ring

/-- A rational of fewer bits has a smaller last place. -/
theorem lastPlace_le {q : ℚ} {e : ℤ} (he : -52 ≤ e) (h : |q| < 2 ^ (e + 53)) : lastPlace q ≤ e := by
  have hlog : Int.log 2 |q| < e + 53 := by
    rcases (abs_nonneg q).lt_or_eq with hq | hq
    · exact (Int.lt_zpow_iff_log_lt (by norm_num) hq).mp (by exact_mod_cast h)
    · rw [← hq, Int.log_zero_right]
      omega
  unfold lastPlace
  omega

/-- Below `2 ^ 34` a double is nearer than a millionth. -/
theorem abs_round_sub_lt {q : ℚ} (h : |q| < 2 ^ 34) : |round q - q| < 1 / 1000000 := by
  have hplace : lastPlace q ≤ -19 := by
    refine lastPlace_le (by norm_num) ?_
    have h34 : (-19 : ℤ) + 53 = (34 : ℕ) := by norm_num
    rw [h34, zpow_natCast]
    exact h
  have hlast : (2 : ℚ) ^ lastPlace q ≤ 2 ^ (-19 : ℤ) := zpow_le_zpow_right₀ (by norm_num) hplace
  calc |round q - q| ≤ 2 ^ lastPlace q / 2 := abs_round_sub_le q
    _ ≤ 2 ^ (-19 : ℤ) / 2 := div_le_div_of_nonneg_right hlast (by norm_num)
    _ < 1 / 1000000 := by norm_num

/-- The exponent of the least positive double with all 53 bits. -/
def leastNormal : ℤ := -1022

/-- A negative rational in the normal range does not round to zero. -/
theorem round_neg {q : ℚ} (h : q ≤ -(2 ^ leastNormal)) : round q < 0 := by
  have hpos := place_pos (lastPlace q)
  have hsmall := place_pos leastNormal
  have hq : q < 0 := by linarith
  have habs : 0 < |q| := abs_pos.mpr hq.ne
  have hlog : leastNormal ≤ Int.log 2 |q| := by
    refine (Int.zpow_le_iff_le_log (by norm_num) habs).mp ?_
    rw [abs_of_neg hq, Nat.cast_ofNat]
    linarith
  have hplace : lastPlace q = Int.log 2 |q| - 52 := by
    unfold lastPlace
    unfold leastNormal at hlog
    omega
  have hle := Int.zpow_log_le_self (b := 2) (by norm_num) habs
  rw [abs_of_neg hq] at hle
  have hm : q / 2 ^ lastPlace q ≤ ((-1 : ℤ) : ℚ) := by
    rw [div_le_iff₀ hpos]
    have hmono : (2 : ℚ) ^ lastPlace q ≤ 2 ^ Int.log 2 |q| :=
      zpow_le_zpow_right₀ (by norm_num) (by omega)
    rw [abs_of_neg hq] at hmono
    push_cast at hle ⊢
    linarith
  have hr : ((roundHalfEven (q / 2 ^ lastPlace q) : ℤ) : ℚ) ≤ ((-1 : ℤ) : ℚ) := by
    exact_mod_cast roundHalfEven_le hm
  calc round q ≤ ((-1 : ℤ) : ℚ) * 2 ^ lastPlace q := mul_le_mul_of_nonneg_right hr hpos.le
    _ < 0 := by push_cast; linarith

/-- `int` of a double: the integer next to it, towards zero. -/
def truncate (q : ℚ) : ℤ := if 0 ≤ q then ⌊q⌋ else ⌈q⌉

/-- The least integer whose conversion overflows: halfway between the largest finite
    double and `2 ^ 1024`, a tie that rounds up to infinity. -/
def intOverflow : ℤ := 2 ^ 1024 - 2 ^ 970

/-- An integer as a double, `none` where the conversion overflows. -/
def ofInt? (n : ℤ) : Option ℚ := if |n| < intOverflow then some (round n) else none

end NokincFactory.Binary64
