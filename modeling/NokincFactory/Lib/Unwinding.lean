/-
  File:      NokincFactory/Lib/Unwinding.lean
  Subject:   Many programs over one world, some of which cannot be noticed by the others.

  Which programs are foreign is said by the run so far. Where nothing that a foreign program asks
  is seen in the world, and all that the others ask is answered from what is seen, a run without
  the deeds of the foreign programs is a run as well, and the others are where they were.

  * `Purged`: a run, and the run without the deeds of the programs that were foreign;
  * `Unwinds`: what one request, or a change by others, does to what is seen;
  * `Surroundings.crew_unwinds`: the rule.
-/
import NokincFactory.Lib.Programs

namespace NokincFactory

variable {ι E ε α τ W V : Type} {R : E → Type}

/-- A run, and the run without the deeds of the programs that were foreign then, and without what
others did to the world. -/
inductive Purged (foreign : List (Deed ι E R) → ι → Prop) :
    List (Deed ι E R) → List (Deed ι E R) → Prop where
  | start : Purged foreign [] []
  | kept (run own : List (Deed ι E R)) (i : ι) (request : E) (answer : R request)
      (h : Purged foreign run own) (hown : ¬ foreign run i) :
      Purged foreign (run ++ [.asked i request answer]) (own ++ [.asked i request answer])
  | dropped (run own : List (Deed ι E R)) (i : ι) (request : E) (answer : R request)
      (h : Purged foreign run own) (hforeign : foreign run i) :
      Purged foreign (run ++ [.asked i request answer]) own
  | changed (run own : List (Deed ι E R)) (h : Purged foreign run own) :
      Purged foreign (run ++ [.changed]) own

namespace Surroundings

variable [DecidableEq ι] {S : Surroundings ι E R W} {S' : Surroundings ι E R V}
  {P : ι → Protocol E R τ} {Q : ι → Except ε α → τ → Prop} {programs : ι → Prog E R ε α}
  {foreign : List (Deed ι E R) → ι → Prop} {Sees : W → V → Prop}
  {I : List (Deed ι E R) → (ι → τ) → Prop}

/-- What one request does to what is seen, and to who is foreign, where the programs are at their
stages. -/
structure Unwinds (S : Surroundings ι E R W) (S' : Surroundings ι E R V) (P : ι → Protocol E R τ)
    (foreign : List (Deed ι E R) → ι → Prop) (Sees : W → V → Prop)
    (I : List (Deed ι E R) → (ι → τ) → Prop) : Prop where
  asked : ∀ run w stage i request answer w' v, I run stage → (P i).allows (stage i) request →
    S.answers w i request answer w' → Sees w v →
    (foreign run i → Sees w' v) ∧
      (¬ foreign run i → ∃ v', S'.answers v i request answer v' ∧ Sees w' v')
  changed : ∀ w w' v, S.changes w w' → Sees w v → Sees w' v
  stays : ∀ run stage i request answer, I run stage → (P i).allows (stage i) request →
    I (run ++ [.asked i request answer])
      (Function.update stage i ((P i).next (stage i) request answer)) ∧
    (foreign run i → foreign (run ++ [.asked i request answer]) i) ∧
    ∀ j ≠ i, foreign (run ++ [.asked i request answer]) j ↔ foreign run j
  waits : ∀ run stage, I run stage → I (run ++ [.changed]) stage ∧
    ∀ j, foreign (run ++ [.changed]) j ↔ foreign run j

/-- The rule: the deeds of foreign programs can be left out of a run. -/
theorem crew_unwinds (hunwinds : Unwinds S S' P foreign Sees I) (first : τ)
    (hprograms : ∀ i, (P i).Follows first (programs i) (Q i)) (hI : I [] fun _ => first)
    (hstart : ∀ w, S.start w → ∃ v, S'.start v ∧ Sees w v) {run : List (Deed ι E R)}
    {s : W × (ι → Prog E R ε α)} (h : (S.crew programs).Trace run s) :
    ∃ own v tasks, Purged foreign run own ∧ (S'.crew programs).Trace own (v, tasks) ∧ Sees s.1 v ∧
      ∀ i, ¬ foreign run i → tasks i = s.2 i := by
  suffices hstages : ∃ stage own v tasks, I run stage ∧
      (∀ i, (P i).Follows (stage i) (s.2 i) (Q i)) ∧ Purged foreign run own ∧
        (S'.crew programs).Trace own (v, tasks) ∧ Sees s.1 v ∧
          ∀ i, ¬ foreign run i → tasks i = s.2 i by
    obtain ⟨stage, own, v, tasks, -, -, hrest⟩ := hstages
    exact ⟨own, v, tasks, hrest⟩
  refine h.invariant (fun run s => ∃ stage own v tasks, I run stage ∧
    (∀ i, (P i).Follows (stage i) (s.2 i) (Q i)) ∧ Purged foreign run own ∧
      (S'.crew programs).Trace own (v, tasks) ∧ Sees s.1 v ∧
        ∀ i, ¬ foreign run i → tasks i = s.2 i) ?_ ?_
  · intro ⟨w, tasks⟩ ⟨hw, htasks⟩
    obtain ⟨v, hv, hsees⟩ := hstart w hw
    obtain rfl : tasks = programs := htasks
    exact ⟨fun _ => first, [], v, tasks, hI, hprograms, .start, .start _ ⟨hv, rfl⟩, hsees,
      fun _ _ => rfl⟩
  · intro run s deed s' _ ⟨stage, own, v, tasks, hI, hfollows, hpurged, htrace, hsees, hsame⟩ hstep
    cases hstep with
    | changed w w' programs' hchange =>
        obtain ⟨hI', hforeign⟩ := hunwinds.waits run stage hI
        exact ⟨stage, own, v, tasks, hI', hfollows, .changed run own hpurged, htrace,
          hunwinds.changed w w' v hchange hsees, fun i hi => hsame i (mt (hforeign i).mpr hi)⟩
    | asked w w' programs' i request answer next hi hanswer =>
        have hfi := hfollows i
        rw [show (w, programs').2 i = Prog.ask request next from hi] at hfi
        obtain ⟨hI', hkept, hothers⟩ := hunwinds.stays run stage i request answer hI hfi.1
        obtain ⟨hhidden, hseen⟩ :=
          hunwinds.asked run w stage i request answer w' v hI hfi.1 hanswer hsees
        have hfollows' : ∀ j, (P j).Follows
            (Function.update stage i ((P i).next (stage i) request answer) j)
            (Function.update programs' i (next answer) j) (Q j) := by
          intro j
          by_cases hj : j = i
          · rw [hj, Function.update_self, Function.update_self]
            exact hfi.2 answer
          · rw [Function.update_of_ne hj, Function.update_of_ne hj]
            exact hfollows j
        by_cases hforeign : foreign run i
        · refine ⟨_, own, v, tasks, hI', hfollows', .dropped run own i request answer hpurged
            hforeign, htrace, hhidden hforeign, fun j hj => ?_⟩
          have hji : j ≠ i := fun hji => hj (hji ▸ hkept hforeign)
          show tasks j = Function.update programs' i (next answer) j
          rw [Function.update_of_ne hji]
          exact hsame j (mt (hothers j hji).mpr hj)
        · obtain ⟨v', hanswer', hsees'⟩ := hseen hforeign
          have hseenStep : (S'.crew programs).step (v, tasks) (.asked i request answer)
              (v', Function.update tasks i (next answer)) :=
            .asked v v' tasks i request answer next ((hsame i hforeign).trans hi) hanswer'
          refine ⟨_, own ++ [.asked i request answer], v', Function.update tasks i (next answer), hI',
            hfollows', .kept run own i request answer hpurged hforeign,
            htrace.step _ hseenStep, hsees', fun j hj => ?_⟩
          show Function.update tasks i (next answer) j = Function.update programs' i (next answer) j
          by_cases hji : j = i
          · rw [hji, Function.update_self, Function.update_self]
          · rw [Function.update_of_ne hji, Function.update_of_ne hji]
            exact hsame j (mt (hothers j hji).mpr hj)

end Surroundings

end NokincFactory
