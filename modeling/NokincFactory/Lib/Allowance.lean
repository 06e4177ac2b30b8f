/-
  File:      NokincFactory/Lib/Allowance.lean
  Subject:   An allowance: at most so many grants, and so many uses of each.

  * `Allowance.Move`: one grant below the limit, or one use that its holder's grants cover;
  * `Allowance.system`: the runs of an allowance;
  * `Allowance.Within`, `Allowance.within_of_reachable`: the bounds, and that they hold along
    every run;
  * `Allowance.Within.used_le`: the limit covers the uses of all holders together.
-/
import Mathlib.Algebra.Order.Group.Multiset
import Mathlib.Algebra.Order.Monoid.Unbundled.Pow
import NokincFactory.Lib.Runs

namespace NokincFactory

/-- Who was granted something, and who has used it, as often as that happened. -/
@[ext] structure Allowance (κ : Type) where
  granted : Multiset κ
  used : Multiset κ

namespace Allowance

variable {κ : Type} [DecidableEq κ] {limit each : ℕ} {a a' : Allowance κ}

/-- One step of an allowance of `limit` grants, with `each` uses for a grant. -/
inductive Move (limit each : ℕ) : Allowance κ → Allowance κ → Prop where
  | grant (a : Allowance κ) (i : κ) (h : a.granted.card < limit) :
      Move limit each a { a with granted := i ::ₘ a.granted }
  | use (a : Allowance κ) (i : κ) (h : a.used.count i < each * a.granted.count i) :
      Move limit each a { a with used := i ::ₘ a.used }

/-- The runs of an allowance, from grants within the limit that are not used yet. -/
def system (limit each : ℕ) : System (Allowance κ) where
  start a := a.granted.card ≤ limit ∧ a.used = 0
  step := Move limit each

/-- No more grants than the limit, and no holder uses more than its grants cover. -/
structure Within (limit each : ℕ) (a : Allowance κ) : Prop where
  granted : a.granted.card ≤ limit
  used : a.used ≤ each • a.granted

theorem Within.move (h : Within limit each a) (hm : Move limit each a a') :
    Within limit each a' := by
  cases hm with
  | grant i hi =>
      refine ⟨?_, h.used.trans (nsmul_le_nsmul_right (Multiset.le_cons_self _ _) each)⟩
      show (i ::ₘ a.granted).card ≤ limit
      rw [Multiset.card_cons]
      exact hi
  | use i hi =>
      refine ⟨h.granted, Multiset.le_iff_count.mpr fun j => ?_⟩
      have hj := Multiset.le_iff_count.mp h.used j
      show (i ::ₘ a.used).count j ≤ (each • a.granted).count j
      rw [Multiset.count_nsmul] at hj ⊢
      by_cases hji : j = i
      · rw [hji, Multiset.count_cons_self]
        exact hi
      · rw [Multiset.count_cons_of_ne hji]
        exact hj

theorem within_of_reachable (h : (system limit each).Reachable a) : Within limit each a := by
  refine h.invariant ?_ fun s s' _ hs hm => hs.move hm
  intro s ⟨hgranted, hused⟩
  refine ⟨hgranted, ?_⟩
  rw [hused]
  exact Multiset.zero_le _

omit [DecidableEq κ] in
/-- All uses together. -/
theorem Within.used_le (h : Within limit each a) : a.used.card ≤ each * limit := by
  have hcard := Multiset.card_le_card h.used
  rw [Multiset.card_nsmul] at hcard
  exact hcard.trans (Nat.mul_le_mul_left each h.granted)

/-- Whoever has a use left to make, beyond the uses made, was granted something. -/
theorem mem_granted_of_lt {i : κ} (h : a.used.count i < each * a.granted.count i) :
    i ∈ a.granted := by
  rw [← Multiset.count_pos]
  by_contra hzero
  rw [Nat.eq_zero_of_not_pos hzero] at h
  exact Nat.not_lt_zero _ h

end Allowance

end NokincFactory
