/-
  File:      NokincFactory/Lib/Runs.lean
  Subject:   Systems that take step after step, and what holds along every run.

  * `System`: the states a run may start in, and the steps it may take;
  * `System.Reachable.invariant`: what holds at the start and is kept by every step from a
    reachable state holds in every reachable state;
  * `System.Steps.stable`: what one step from a reachable state keeps, a run from a reachable
    state keeps.
-/
import Mathlib.Logic.Relation

namespace NokincFactory

variable {σ : Type}

/-- The states a run may start in and the steps it may take. -/
structure System (σ : Type) where
  start : σ → Prop
  step : σ → σ → Prop

namespace System

variable (S : System σ)

/-- A run: any number of steps. -/
abbrev Steps : σ → σ → Prop := Relation.ReflTransGen S.step

inductive Reachable : σ → Prop where
  | start (s : σ) (h : S.start s) : Reachable s
  | step (s s' : σ) (hr : Reachable s) (h : S.step s s') : Reachable s'

variable {S}

theorem Reachable.steps {s s' : σ} (h : S.Reachable s) (hs : S.Steps s s') : S.Reachable s' := by
  induction hs with
  | refl => exact h
  | tail _ hstep ih => exact .step _ _ ih hstep

/-- The invariant rule. A step may use that the state before it is reachable. -/
theorem Reachable.invariant {I : σ → Prop} (hstart : ∀ s, S.start s → I s)
    (hstep : ∀ s s', S.Reachable s → I s → S.step s s' → I s') {s : σ} (h : S.Reachable s) :
    I s := by
  induction h with
  | start s h => exact hstart s h
  | step s s' hr h ih => exact hstep s s' hr ih h

/-- A property kept by every step from a reachable state is never lost again. -/
theorem Steps.stable {I : σ → Prop}
    (hstep : ∀ s s', S.Reachable s → I s → S.step s s' → I s') {s s' : σ} (h : S.Reachable s)
    (hs : S.Steps s s') (hi : I s) : I s' := by
  induction hs with
  | refl => exact hi
  | tail hs hstep' ih => exact hstep _ _ (h.steps hs) ih hstep'

end System

end NokincFactory
