/-
  File:      NokincFactory/Lib/Pool.lean
  Subject:   A resource that the entries of a dictionary share.

  Each entry commits some amount of the resource, in an additive group, and an entry is
  replaced as a whole. A counter that is moved by the difference of the new and the old
  amount of the entry follows the total.

  * `Dict.total`, `Dict.amountAt`: the total of the entries, and the amount of one;
  * `Dict.total_insert`, `Dict.total_insert_zero`: what replacing one entry does to it;
  * `Dict.amountAt_le_total`: where no amount is negative, none is beyond the total.
-/
import Mathlib.Algebra.Order.BigOperators.Group.List
import Mathlib.Algebra.Order.Group.Unbundled.Basic
import Mathlib.Tactic.Abel
import NokincFactory.Lib.Dict

namespace NokincFactory

namespace Dict

variable {κ α M : Type} [DecidableEq κ]

/-! ## 1. The total of the entries -/

section Total

variable [AddCommGroup M]

/-- The total over the entries of a dictionary. -/
def total (amount : κ → α → M) (d : Dict κ α) : M :=
  (d.entries.map fun e => amount e.1 e.2).sum

/-- The amount of one entry, zero where there is none. -/
def amountAt (amount : κ → α → M) (d : Dict κ α) (k : κ) : M :=
  ((AList.lookup k d).map (amount k)).getD 0

omit [DecidableEq κ] in
@[simp] theorem total_empty (amount : κ → α → M) : total amount (∅ : Dict κ α) = 0 := rfl

theorem amountAt_of_lookup {amount : κ → α → M} {d : Dict κ α} {k : κ} {v : α}
    (h : AList.lookup k d = some v) : amountAt amount d k = amount k v := by
  unfold amountAt
  rw [h]
  rfl

theorem amountAt_of_none {amount : κ → α → M} {d : Dict κ α} {k : κ}
    (h : AList.lookup k d = none) : amountAt amount d k = 0 := by
  unfold amountAt
  rw [h]
  rfl

theorem amountAt_zero {amount : κ → α → M} {d : Dict κ α} {k : κ} (h : ∀ v, amount k v = 0) :
    amountAt amount d k = 0 := by
  cases hl : AList.lookup k d with
  | none => exact amountAt_of_none hl
  | some v => rw [amountAt_of_lookup hl, h v]

/-- The entry of `k` and the others. -/
theorem total_eq (amount : κ → α → M) (d : Dict κ α) (k : κ) :
    total amount d =
      amountAt amount d k + ((d.entries.kerase k).map fun e => amount e.1 e.2).sum := by
  by_cases hk : k ∈ d.entries.keys
  · obtain ⟨v, l₁, l₂, hnot, hl, he⟩ := List.exists_of_kerase hk
    have hlook : AList.lookup k d = some v := by
      refine (List.mem_dlookup_iff d.nodupKeys).mpr ?_
      rw [hl]
      exact List.mem_append_right _ List.mem_cons_self
    rw [amountAt_of_lookup hlook, he]
    unfold total
    rw [hl, List.map_append, List.sum_append, List.map_cons, List.sum_cons, List.map_append,
      List.sum_append]
    abel
  · have hnone : AList.lookup k d = none := AList.lookup_eq_none.mpr hk
    rw [amountAt_of_none hnone, List.kerase_of_notMem_keys hk, zero_add]
    rfl

/-- Replacing an entry moves the total by the difference of its amounts. -/
theorem total_insert (amount : κ → α → M) (d : Dict κ α) (k : κ) (v : α) :
    total amount (AList.insert k v d) = total amount d + amount k v - amountAt amount d k := by
  have hsum : total amount (AList.insert k v d) =
      amount k v + ((d.entries.kerase k).map fun e => amount e.1 e.2).sum := by
    unfold total
    rw [AList.entries_insert, List.map_cons, List.sum_cons]
  rw [hsum, total_eq amount d k]
  abel

/-- An entry that commits nothing, neither before nor after, does not show in the total. -/
theorem total_insert_zero {amount : κ → α → M} {k : κ} (h : ∀ v, amount k v = 0)
    (d : Dict κ α) (v : α) : total amount (AList.insert k v d) = total amount d := by
  rw [total_insert, h, amountAt_zero h, add_zero, sub_zero]

end Total

/-! ## 2. Amounts in order -/

section Order

variable [AddCommGroup M] [PartialOrder M] [IsOrderedAddMonoid M]

omit [DecidableEq κ] in
theorem total_nonneg {amount : κ → α → M} (h : ∀ k v, 0 ≤ amount k v) (d : Dict κ α) :
    0 ≤ total amount d := by
  refine List.sum_nonneg fun x hx => ?_
  obtain ⟨e, -, rfl⟩ := List.mem_map.mp hx
  exact h e.1 e.2

/-- No entry commits more than the total. -/
theorem amountAt_le_total {amount : κ → α → M} (h : ∀ k v, 0 ≤ amount k v) (d : Dict κ α)
    (k : κ) : amountAt amount d k ≤ total amount d := by
  rw [total_eq amount d k]
  refine le_add_of_nonneg_right (List.sum_nonneg fun x hx => ?_)
  obtain ⟨e, -, rfl⟩ := List.mem_map.mp hx
  exact h e.1 e.2

end Order

end Dict

end NokincFactory
