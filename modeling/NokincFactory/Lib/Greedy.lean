/-
  File:      NokincFactory/Lib/Greedy.lean
  Subject:   Taking from a list, in its order, what still fits into a budget.

  * `Greedy.pick`: one pass over the list, which skips what does not fit and stops at a count;
  * `Greedy.pick_sublist`, `Greedy.pick_length`, `Greedy.pick_total`: what is taken;
  * `Greedy.pick_concat`, `Greedy.pick_prefix`: an element is taken exactly if it fits beside what
    was taken before it, and nothing after it changes that;
  * `Greedy.passed_over`: in a sorted list, what is not taken gave way to better elements.
-/
import Mathlib.Algebra.BigOperators.Group.List.Basic
import Mathlib.Algebra.GroupWithZero.Nat
import Mathlib.Data.List.Induction
import Mathlib.Data.List.Infix

namespace NokincFactory

variable {α : Type}

namespace Greedy

variable (size : α → ℕ) (count budget : ℕ)

/-- What is taken of a list, with `n` elements of size `t` in all taken before. -/
def pick : List α → ℕ → ℕ → List α
  | [], _, _ => []
  | a :: rest, n, t =>
      if budget < t + size a then pick rest n t
      else if count ≤ n + 1 then [a]
      else a :: pick rest (n + 1) (t + size a)

/-- The size of a list. -/
def total (l : List α) : ℕ := (l.map size).sum

variable {size count budget} {l rest : List α} {a : α} {n t : ℕ}

@[simp] theorem total_nil : total size ([] : List α) = 0 := rfl

@[simp] theorem total_cons : total size (a :: l) = size a + total size l := by
  simp [total]

@[simp] theorem total_append : total size (l ++ rest) = total size l + total size rest := by
  simp [total]

theorem pick_sublist : ∀ (l : List α) (n t : ℕ), (pick size count budget l n t).Sublist l
  | [], _, _ => List.Sublist.slnil
  | a :: rest, n, t => by
      unfold pick
      split
      · exact (pick_sublist rest n t).cons a
      · split
        · exact (List.nil_sublist rest).cons_cons a
        · exact (pick_sublist rest _ _).cons_cons a

theorem pick_length : ∀ (l : List α) (n t : ℕ), n < count →
    n + (pick size count budget l n t).length ≤ count
  | [], n, t, hn => by
      rw [pick]
      exact hn.le
  | a :: rest, n, t, hn => by
      unfold pick
      split
      · exact pick_length rest n t hn
      · split
        · exact hn
        · have ih := pick_length rest (n + 1) (t + size a) (by omega)
          rw [List.length_cons]
          omega

theorem pick_total : ∀ (l : List α) (n t : ℕ), t ≤ budget →
    t + total size (pick size count budget l n t) ≤ budget
  | [], n, t, ht => by
      rw [pick]
      exact ht
  | a :: rest, n, t, ht => by
      unfold pick
      split
      · exact pick_total rest n t ht
      · split
        · rw [total_cons, total_nil]
          omega
        · have ih := pick_total rest (n + 1) (t + size a) (by omega)
          rw [total_cons]
          omega

/-- An element fits beside what was taken. -/
def Fits (size : α → ℕ) (count budget : ℕ) (taken : List α) (n t : ℕ) (a : α) : Prop :=
  n + taken.length < count ∧ t + total size taken + size a ≤ budget

instance (taken : List α) (a : α) : Decidable (Fits size count budget taken n t a) :=
  inferInstanceAs (Decidable (_ ∧ _))

/-- The last element is taken exactly if it fits beside what was taken before it. -/
theorem pick_concat : ∀ (l : List α) (n t : ℕ) (a : α), n < count →
    pick size count budget (l ++ [a]) n t = pick size count budget l n t ++
      if Fits size count budget (pick size count budget l n t) n t a then [a] else []
  | [], n, t, a, hn => by
      have hfits : Fits size count budget ([] : List α) n t a ↔ ¬ budget < t + size a := by
        unfold Fits
        rw [List.length_nil, total_nil]
        omega
      simp only [List.nil_append, pick, hfits]
      by_cases hsize : budget < t + size a
      · simp [hsize]
      · simp [hsize]
  | b :: rest, n, t, a, hn => by
      rw [List.cons_append, pick, pick]
      split
      · exact pick_concat rest n t a hn
      · split
        · rename_i hfull
          rw [if_neg]
          · rfl
          · rintro ⟨hlength, -⟩
            rw [List.length_singleton] at hlength
            omega
        · rename_i hmore
          have hfits : Fits size count budget (pick size count budget rest (n + 1) (t + size b))
                (n + 1) (t + size b) a ↔
              Fits size count budget (b :: pick size count budget rest (n + 1) (t + size b))
                n t a := by
            unfold Fits
            rw [List.length_cons, total_cons]
            omega
          rw [pick_concat rest (n + 1) (t + size b) a (by omega)]
          simp only [hfits]
          rfl

/-- What is taken of the first elements stays taken. -/
theorem pick_prefix (l rest : List α) (hn : n < count) :
    pick size count budget l n t <+: pick size count budget (l ++ rest) n t := by
  induction rest using List.reverseRecOn with
  | nil =>
      rw [List.append_nil]
  | append_singleton rest a ih =>
      rw [← List.append_assoc, pick_concat _ n t a hn]
      exact ih.trans (List.prefix_append _ _)

/-- What was passed over in a sorted list had no place, or no room, beside better elements. -/
theorem passed_over {r : α → α → Prop} (hsorted : l.Pairwise r) (hcount : 0 < count) (ha : a ∈ l)
    (hnot : a ∉ pick size count budget l 0 0) :
    ∃ better, better <+: pick size count budget l 0 0 ∧ (∀ b ∈ better, r b a) ∧
      (better.length = count ∨ budget < total size better + size a) := by
  obtain ⟨before, after, rfl⟩ := List.append_of_mem ha
  have hfirst : pick size count budget (before ++ [a]) 0 0 <+:
      pick size count budget (before ++ [a] ++ after) 0 0 := pick_prefix (before ++ [a]) after hcount
  rw [List.append_assoc, List.singleton_append, pick_concat before 0 0 a hcount] at hfirst
  refine ⟨pick size count budget before 0 0, (List.prefix_append _ _).trans hfirst, ?_, ?_⟩
  · intro b hb
    exact (List.pairwise_append.mp hsorted).2.2 b ((pick_sublist before 0 0).subset hb) a
      List.mem_cons_self
  · by_cases hfits : Fits size count budget (pick size count budget before 0 0) 0 0 a
    · rw [if_pos hfits] at hfirst
      exact absurd (hfirst.subset (List.mem_append_right _ List.mem_cons_self)) hnot
    · have hlength : 0 + (pick size count budget before 0 0).length ≤ count :=
        pick_length before 0 0 hcount
      unfold Fits at hfits
      omega

end Greedy

end NokincFactory
