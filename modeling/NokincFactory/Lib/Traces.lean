/-
  File:      NokincFactory/Lib/Traces.lean
  Subject:   Labelled systems: runs that keep the list of the steps taken.

  * `Labelled`: the states a run may start in, and what each label may do to a state;
  * `Labelled.Trace`: a run together with the labels of its steps, in order;
  * `Labelled.Trace.invariant`: what relates the labels so far to the state, shown step by
    step, holds along every run;
  * `Labelled.Trace.takes`: every label of a run stands at the end of a shorter run;
  * `Labelled.Goes`, `Labelled.Trace.keeps`: going on from a state of a run, and what every step
    on the way relates;
  * `exists_turn`: what comes to hold along a list comes to hold at one of its elements.
-/
import Mathlib.Data.List.Infix

namespace NokincFactory

variable {α σ : Type}

/-- The states a run may start in, and what a label may do to a state. -/
structure Labelled (α σ : Type) where
  start : σ → Prop
  step : σ → α → σ → Prop

namespace Labelled

/-- A run with the labels of its steps, the latest last. -/
inductive Trace (S : Labelled α σ) : List α → σ → Prop where
  | start (s : σ) (h : S.start s) : Trace S [] s
  | step {run : List α} {s s' : σ} (a : α) (h : Trace S run s) (hs : S.step s a s') :
      Trace S (run ++ [a]) s'

variable {S : Labelled α σ} {run : List α} {s : σ}

/-- The invariant rule. A step may use that the run before it is a run. -/
theorem Trace.invariant (I : List α → σ → Prop) (hstart : ∀ s, S.start s → I [] s)
    (hstep : ∀ run s a s', S.Trace run s → I run s → S.step s a s' → I (run ++ [a]) s')
    (h : S.Trace run s) : I run s := by
  induction h with
  | start s h => exact hstart s h
  | step a h hs ih => exact hstep _ _ a _ h ih hs

theorem Trace.snoc {a : α} (h : S.Trace (run ++ [a]) s) :
    ∃ s₀, S.Trace run s₀ ∧ S.step s₀ a s := by
  generalize hl : run ++ [a] = l at h
  cases h with
  | start s h => simp at hl
  | step b h hs =>
      obtain ⟨rfl, hab⟩ := List.append_inj' hl rfl
      cases hab
      exact ⟨_, h, hs⟩

/-- The first steps of a run are a run. -/
theorem Trace.before {earlier later : List α} (h : S.Trace (earlier ++ later) s) :
    ∃ s₀, S.Trace earlier s₀ := by
  induction later using List.reverseRecOn generalizing s with
  | nil => exact ⟨s, by rwa [List.append_nil] at h⟩
  | append_singleton later a ih =>
      rw [← List.append_assoc] at h
      obtain ⟨s₀, h₀, -⟩ := h.snoc
      exact ih h₀

/-- Every label of a run was a step from the state that the labels before it led to. -/
theorem Trace.takes {earlier : List α} {a : α} (h : S.Trace run s) (hp : earlier ++ [a] <+: run) :
    ∃ s₀ s₁, S.Trace earlier s₀ ∧ S.step s₀ a s₁ ∧ S.Trace (earlier ++ [a]) s₁ := by
  obtain ⟨later, rfl⟩ := hp
  obtain ⟨s₁, h₁⟩ := h.before
  obtain ⟨s₀, h₀, hs⟩ := h₁.snoc
  exact ⟨s₀, s₁, h₀, hs, h₁⟩

/-- Going on from a state, with the labels of the steps, the latest last. -/
inductive Goes (S : Labelled α σ) (s : σ) : List α → σ → Prop where
  | refl : Goes S s [] s
  | step {later : List α} {s' s'' : σ} (a : α) (h : Goes S s later s') (hs : S.step s' a s'') :
      Goes S s (later ++ [a]) s''

/-- A run that goes on is a run. -/
theorem Trace.goes {later : List α} {s' : σ} (h : S.Trace run s) (hg : S.Goes s later s') :
    S.Trace (run ++ later) s' := by
  induction hg with
  | refl => rwa [List.append_nil]
  | step a _ hs ih =>
      rw [← List.append_assoc]
      exact .step a ih hs

/-- What every step of a run relates, the run relates as a whole. -/
theorem Trace.keeps (r : σ → σ → Prop) (hrefl : ∀ s, r s s)
    (htrans : ∀ s s' s'', r s s' → r s' s'' → r s s'')
    (hstep : ∀ run s a s', S.Trace run s → S.step s a s' → r s s') {later : List α} {s' : σ}
    (h : S.Trace run s) (hg : S.Goes s later s') : r s s' := by
  induction hg with
  | refl => exact hrefl s
  | step a hg hs ih => exact htrans _ _ _ ih (hstep _ _ a _ (h.goes hg) hs)

end Labelled

/-- What does not hold at first and holds at last comes to hold at some element. -/
theorem exists_turn (p : List α → Prop) {earlier between : List α} (h₀ : ¬ p earlier)
    (h₁ : p (earlier ++ between)) :
    ∃ before a after, between = before ++ a :: after ∧ ¬ p (earlier ++ before) ∧
      p (earlier ++ (before ++ [a])) := by
  induction between generalizing earlier with
  | nil =>
      rw [List.append_nil] at h₁
      exact absurd h₁ h₀
  | cons a rest ih =>
      by_cases ha : p (earlier ++ [a])
      · exact ⟨[], a, rest, rfl, by rwa [List.append_nil], ha⟩
      · have hrest : p (earlier ++ [a] ++ rest) := by
          rw [List.append_assoc]
          exact h₁
        obtain ⟨before, b, after, rfl, hb, hb'⟩ := ih ha hrest
        rw [List.append_assoc] at hb hb'
        exact ⟨a :: before, b, after, rfl, hb, hb'⟩

end NokincFactory
