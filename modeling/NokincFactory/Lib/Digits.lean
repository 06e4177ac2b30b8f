/-
  File:      NokincFactory/Lib/Digits.lean
  Subject:   Numbers written with a fixed number of digits.

  * `eq_of_digits`: the digits tell the number;
  * `eq_of_map_digits`: and so does their text, the most significant digit first;
  * `digits_after_zeros`: decimal digits are the decimal form of their number, after zeros.
-/
import Mathlib.Algebra.Order.Ring.Nat
import Mathlib.Data.List.Basic
import Mathlib.Data.List.Induction

namespace NokincFactory

variable {b m n : ℕ}

/-- The digits in a base tell a number below a power of it. -/
theorem eq_of_digits (hb : 0 < b) : ∀ {k m n : ℕ}, m < b ^ k → n < b ^ k →
    (∀ i < k, m / b ^ i % b = n / b ^ i % b) → m = n
  | 0, m, n, hm, hn, _ => by
      rw [pow_zero] at hm hn
      omega
  | k + 1, m, n, hm, hn, h => by
      have hlast := h 0 (Nat.succ_pos k)
      rw [pow_zero, Nat.div_one, Nat.div_one] at hlast
      rw [pow_succ] at hm hn
      have hrest : m / b = n / b := by
        refine eq_of_digits hb (k := k) ((Nat.div_lt_iff_lt_mul hb).mpr hm)
          ((Nat.div_lt_iff_lt_mul hb).mpr hn) fun i hi => ?_
        have hnext := h (i + 1) (Nat.succ_lt_succ hi)
        rw [pow_succ, Nat.mul_comm, ← Nat.div_div_eq_div_mul, ← Nat.div_div_eq_div_mul] at hnext
        exact hnext
      rw [← Nat.div_add_mod m b, ← Nat.div_add_mod n b, hrest, hlast]

/-- One text of digits, one number. -/
theorem eq_of_map_digits {α : Type} {d : ℕ → α} (hb : 0 < b)
    (hd : ∀ x < b, ∀ y < b, d x = d y → x = y) {k : ℕ} (hm : m < b ^ k) (hn : n < b ^ k)
    (h : (List.range k).map (fun i => d (m / b ^ (k - 1 - i) % b)) =
      (List.range k).map fun i => d (n / b ^ (k - 1 - i) % b)) : m = n := by
  refine eq_of_digits hb hm hn fun i hi => ?_
  have hmem : k - 1 - i ∈ List.range k := List.mem_range.mpr (by omega)
  have heq := List.map_inj_left.mp h _ hmem
  have hback : k - 1 - (k - 1 - i) = i := by omega
  rw [hback] at heq
  exact hd _ (Nat.mod_lt _ hb) _ (Nat.mod_lt _ hb) heq

/-! ## Decimal digits -/

theorem digitChar_of_isDigit {c : Char} (h : c.isDigit = true) : ∃ k < 10, c = Nat.digitChar k := by
  rw [Char.isDigit, Bool.and_eq_true, decide_eq_true_eq, decide_eq_true_eq] at h
  have hlow : 48 ≤ c.toNat := h.1
  have hhigh : c.toNat ≤ 57 := h.2
  have hall : ∀ n < 58, 48 ≤ n → Char.ofNat n = Nat.digitChar (n - 48) := by decide
  refine ⟨c.toNat - 48, by omega, ?_⟩
  rw [← hall c.toNat (by omega) hlow, Char.ofNat_toNat]

/-- Decimal digits are the decimal form of their number, after zeros. -/
theorem digits_after_zeros {digits : List Char} (h : ∀ c ∈ digits, c.isDigit = true)
    (hne : digits ≠ []) :
    ∃ zeros, digits =
      List.replicate zeros '0' ++ Nat.toDigits 10 (Nat.ofDigitChars 10 digits 0) := by
  induction digits using List.reverseRecOn with
  | nil => exact absurd rfl hne
  | append_singleton front c ih =>
    obtain ⟨k, hk, rfl⟩ := digitChar_of_isDigit (h c (List.mem_append_right _ List.mem_cons_self))
    have hlast : Nat.toDigits 10 k = [Nat.digitChar k] := Nat.toDigits_of_lt_base hk
    have hvalue : Nat.ofDigitChars 10 (front ++ [Nat.digitChar k]) 0 =
        10 * Nat.ofDigitChars 10 front 0 + k := by
      rw [Nat.ofDigitChars_append, Nat.ofDigitChars_cons_digitChar_of_lt_ten hk,
        Nat.ofDigitChars_nil]
    rw [hvalue]
    by_cases hfront : front = []
    · refine ⟨0, ?_⟩
      rw [hfront, Nat.ofDigitChars_nil, Nat.mul_zero, Nat.zero_add, hlast]
      rfl
    · obtain ⟨zeros, hzeros⟩ := ih (fun d hd => h d (List.mem_append_left _ hd)) hfront
      by_cases hzero : Nat.ofDigitChars 10 front 0 = 0
      · refine ⟨zeros + 1, ?_⟩
        rw [hzero, Nat.toDigits_zero] at hzeros
        rw [hzero, Nat.mul_zero, Nat.zero_add, hlast, hzeros, List.replicate_succ']
      · refine ⟨zeros, ?_⟩
        rw [← Nat.toDigits_append_toDigits (by decide) (Nat.pos_of_ne_zero hzero) hk, hlast,
          ← List.append_assoc, ← hzeros]

end NokincFactory
