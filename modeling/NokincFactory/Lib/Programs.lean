/-
  File:      NokincFactory/Lib/Programs.lean
  Subject:   Programs that ask their surroundings, and many of them over one world.

  A program is what it asks first, and how it goes on with each answer. What a program does
  under every answer is shown along its text; what many programs do to a world they share is
  shown for one request, for all of their interleavings at once.

  * `Prog`, `Prog.insist`, `Prog.attempt`: programs, which may raise, and catching what they raise;
  * `Prog.run`: what a program does alone, where the world has one answer to each request;
  * `Protocol`: what a program may ask at a stage, and the stage that the answer leads to;
  * `Protocol.Follows`: a program asks only what it may, with a condition on its end; one
    equivalence for each connective;
  * `Protocol.transcript`: the protocol that only records;
  * `Surroundings.crew`: programs over one world, each at its own place;
  * `Surroundings.crew_invariant`, `Surroundings.crew_invariant_to`: what holds of the world and
    of all stages, and is kept by every allowed request, holds along every run;
  * `Surroundings.runs_alone`: a run that goes on with one program alone.
-/
import Mathlib.Logic.Function.Basic
import NokincFactory.Lib.Traces

namespace NokincFactory

/-! ## 1. Programs -/

/-- A program over requests `E`, answered in `R`, that returns an `α` or raises an `ε`. -/
inductive Prog (E : Type) (R : E → Type) (ε α : Type) where
  | ret (value : α)
  | raise (error : ε)
  | ask (request : E) (next : R request → Prog E R ε α)

variable {E : Type} {R : E → Type} {ε α β τ : Type}

namespace Prog

/-- One program and then the other, unless the first raises. -/
def bind : Prog E R ε α → (α → Prog E R ε β) → Prog E R ε β
  | ret value, f => f value
  | raise error, _ => raise error
  | ask request next, f => ask request fun answer => (next answer).bind f

instance : Monad (Prog E R ε) where
  pure := ret
  bind := bind

/-- One request. -/
def send (request : E) : Prog E R ε (R request) := ask request ret

/-- Raise what a computation raised. -/
def ofExcept : Except ε α → Prog E R ε α
  | .ok value => ret value
  | .error error => raise error

/-- Go on only where the condition holds. -/
def insist (p : Prop) [Decidable p] (error : ε) : Prog E R ε Unit :=
  if p then ret () else raise error

/-- Catch what a program raises. -/
def attempt : Prog E R ε α → Prog E R ε (Except ε α)
  | ret value => ret (.ok value)
  | raise error => ret (.error error)
  | ask request next => ask request fun answer => (next answer).attempt

/-! ## 2. A program alone -/

section Run

variable {W : Type}

/-- What a program ends with, and the world then. -/
def run (respond : W → (request : E) → R request × W) : Prog E R ε α → W → Except ε α × W
  | ret value, w => (.ok value, w)
  | raise error, w => (.error error, w)
  | ask request next, w => (next (respond w request).1).run respond (respond w request).2

variable (respond : W → (request : E) → R request × W) (w : W)

@[simp] theorem run_pure (value : α) :
    (pure value : Prog E R ε α).run respond w = (.ok value, w) := rfl

@[simp] theorem run_raise (error : ε) :
    (raise error : Prog E R ε α).run respond w = (.error error, w) := rfl

@[simp] theorem run_send (request : E) :
    (send request : Prog E R ε (R request)).run respond w =
      (.ok (respond w request).1, (respond w request).2) := rfl

@[simp] theorem run_ofExcept (r : Except ε α) :
    (ofExcept r : Prog E R ε α).run respond w = (r, w) := by
  cases r with
  | ok value => rfl
  | error error => rfl

@[simp] theorem run_insist (p : Prop) [Decidable p] (error : ε) :
    (insist p error : Prog E R ε Unit).run respond w =
      (if p then .ok () else .error error, w) := by
  unfold insist
  by_cases hp : p
  · rw [if_pos hp, if_pos hp]
    rfl
  · rw [if_neg hp, if_neg hp]
    rfl

/-- The second program starts in the world that the first one leaves. -/
theorem run_bind (p : Prog E R ε α) (f : α → Prog E R ε β) :
    (p >>= f).run respond w =
      match p.run respond w with
      | (.ok value, w') => (f value).run respond w'
      | (.error error, w') => (.error error, w') := by
  show (p.bind f).run respond w = _
  induction p generalizing w with
  | ret value => rfl
  | raise error => rfl
  | ask request next ih => exact ih _ _

theorem run_bind_ok {p : Prog E R ε α} {f : α → Prog E R ε β} {value : α} {w' : W}
    (h : p.run respond w = (.ok value, w')) :
    (p >>= f).run respond w = (f value).run respond w' := by
  rw [run_bind, h]

theorem run_bind_error {p : Prog E R ε α} {f : α → Prog E R ε β} {error : ε} {w' : W}
    (h : p.run respond w = (.error error, w')) :
    (p >>= f).run respond w = (.error error, w') := by
  rw [run_bind, h]

@[simp] theorem run_attempt (p : Prog E R ε α) :
    p.attempt.run respond w = (.ok (p.run respond w).1, (p.run respond w).2) := by
  induction p generalizing w with
  | ret value => rfl
  | raise error => rfl
  | ask request next ih => exact ih _ _

theorem run_attempt_of {p : Prog E R ε α} {r : Except ε α} {w' : W}
    (h : p.run respond w = (r, w')) : p.attempt.run respond w = (.ok r, w') := by
  rw [run_attempt, h]

end Run

/-- A sequence of three programs. -/
theorem bind_assoc {γ : Type} (p : Prog E R ε α) (f : α → Prog E R ε β) (g : β → Prog E R ε γ) :
    p >>= f >>= g = p >>= fun value => f value >>= g := by
  show (p.bind f).bind g = p.bind fun value => (f value).bind g
  induction p with
  | ret value => rfl
  | raise error => rfl
  | ask request next ih => exact congrArg (ask request) (funext ih)

end Prog

/-! ## 3. Protocols -/

/-- What may be asked at a stage, and where an answer leads. -/
structure Protocol (E : Type) (R : E → Type) (τ : Type) where
  allows : τ → E → Prop
  next : τ → (request : E) → R request → τ

namespace Protocol

variable (P : Protocol E R τ)

/-- From the stage, whatever is answered, the program asks only what it may, and ends as the
condition says. -/
def Follows : τ → Prog E R ε α → (Except ε α → τ → Prop) → Prop
  | s, .ret value, Q => Q (.ok value) s
  | s, .raise error, Q => Q (.error error) s
  | s, .ask request next, Q =>
      P.allows s request ∧ ∀ answer, Follows (P.next s request answer) (next answer) Q

variable {P} {s : τ} {Q : Except ε α → τ → Prop}

theorem Follows.weaken {Q' : Except ε α → τ → Prop} {p : Prog E R ε α} (h : P.Follows s p Q)
    (hQ : ∀ r s, Q r s → Q' r s) : P.Follows s p Q' := by
  induction p generalizing s with
  | ret value => exact hQ _ _ h
  | raise error => exact hQ _ _ h
  | ask request next ih => exact ⟨h.1, fun answer => ih answer (h.2 answer)⟩

@[simp] theorem follows_pure {value : α} :
    P.Follows s (pure value : Prog E R ε α) Q ↔ Q (.ok value) s := Iff.rfl

@[simp] theorem follows_raise {error : ε} :
    P.Follows s (.raise error : Prog E R ε α) Q ↔ Q (.error error) s := Iff.rfl

@[simp] theorem follows_send {request : E} {Q : Except ε (R request) → τ → Prop} :
    P.Follows s (Prog.send request) Q ↔
      P.allows s request ∧ ∀ answer, Q (.ok answer) (P.next s request answer) := Iff.rfl

/-- What follows a first program: the second one, or the end at what the first one raised. -/
theorem follows_bind {p : Prog E R ε α} {f : α → Prog E R ε β} {Q : Except ε β → τ → Prop} :
    P.Follows s (p >>= f) Q ↔ P.Follows s p fun r s =>
      match r with
      | .ok value => P.Follows s (f value) Q
      | .error error => Q (.error error) s := by
  show P.Follows s (p.bind f) Q ↔ _
  induction p generalizing s with
  | ret value => exact Iff.rfl
  | raise error => exact Iff.rfl
  | ask request next ih =>
      unfold Prog.bind Follows
      exact and_congr_right fun _ => forall_congr' fun answer => ih answer

@[simp] theorem follows_attempt {p : Prog E R ε α} {Q : Except ε (Except ε α) → τ → Prop} :
    P.Follows s p.attempt Q ↔ P.Follows s p fun r s => Q (.ok r) s := by
  induction p generalizing s with
  | ret value => exact Iff.rfl
  | raise error => exact Iff.rfl
  | ask request next ih =>
      unfold Prog.attempt Follows
      exact and_congr_right fun _ => forall_congr' fun answer => ih answer

theorem follows_ofExcept {r : Except ε α} :
    P.Follows s (Prog.ofExcept r : Prog E R ε α) Q ↔ Q r s := by
  cases r with
  | ok value => exact Iff.rfl
  | error error => exact Iff.rfl

@[simp] theorem follows_insist {p : Prop} [Decidable p] {error : ε} {Q : Except ε Unit → τ → Prop} :
    P.Follows s (Prog.insist p error) Q ↔ (p → Q (.ok ()) s) ∧ (¬ p → Q (.error error) s) := by
  unfold Prog.insist
  by_cases hp : p
  · rw [if_pos hp]
    exact ⟨fun h => ⟨fun _ => h, fun hn => absurd hp hn⟩, fun h => h.1 hp⟩
  · rw [if_neg hp]
    exact ⟨fun h => ⟨fun h' => absurd h' hp, fun _ => h⟩, fun h => h.2 hp⟩

/-- The protocol that allows everything. Its stage is what was asked so far, with the answers. -/
def transcript : Protocol E R (List (Σ request, R request)) where
  allows _ _ := True
  next asked request answer := asked ++ [⟨request, answer⟩]

theorem Follows.and {Q' : Except ε α → τ → Prop} {p : Prog E R ε α} (h : P.Follows s p Q)
    (h' : P.Follows s p Q') : P.Follows s p fun r s => Q r s ∧ Q' r s := by
  induction p generalizing s with
  | ret value => exact ⟨h, h'⟩
  | raise error => exact ⟨h, h'⟩
  | ask request next ih => exact ⟨h.1, fun answer => ih answer (h.2 answer) (h'.2 answer)⟩

/-- The rule for a sequence: a condition on the end of the first half. -/
theorem Follows.seq {p : Prog E R ε α} {f : α → Prog E R ε β} {M : Except ε α → τ → Prop}
    {Q : Except ε β → τ → Prop} (hp : P.Follows s p M)
    (he : ∀ error s, M (.error error) s → Q (.error error) s)
    (hf : ∀ value s, M (.ok value) s → P.Follows s (f value) Q) : P.Follows s (p >>= f) Q := by
  refine follows_bind.mpr (hp.weaken fun r s h => ?_)
  cases r with
  | ok value => exact hf value s h
  | error error => exact he error s h

/-- Whatever it returns or raises, the program leaves the stage. -/
def Stays (P : Protocol E R τ) (s : τ) (p : Prog E R ε α) : Prop := P.Follows s p fun _ s' => s' = s

/-- A part that leaves the stage, and what comes after it. -/
theorem Stays.then {p : Prog E R ε α} {f : α → Prog E R ε β} {Q : Except ε β → τ → Prop}
    (hp : P.Stays s p) (he : ∀ error, Q (.error error) s) (hf : ∀ value, P.Follows s (f value) Q) :
    P.Follows s (p >>= f) Q := by
  refine Follows.seq hp (fun error s' h => ?_) fun value s' h => ?_
  · rw [h]
    exact he error
  · rw [h]
    exact hf value

theorem Stays.bind {p : Prog E R ε α} {f : α → Prog E R ε β} (hp : P.Stays s p)
    (hf : ∀ value, P.Stays s (f value)) : P.Stays s (p >>= f) :=
  hp.then (fun _ => rfl) hf

theorem stays_pure (value : α) : P.Stays s (pure value : Prog E R ε α) := rfl

theorem stays_raise (error : ε) : P.Stays s (.raise error : Prog E R ε α) := rfl

theorem stays_ofExcept (r : Except ε α) : P.Stays s (.ofExcept r : Prog E R ε α) :=
  follows_ofExcept.mpr rfl

theorem stays_insist (p : Prop) [Decidable p] (error : ε) :
    P.Stays s (.insist p error : Prog E R ε Unit) :=
  follows_insist.mpr ⟨fun _ => rfl, fun _ => rfl⟩

/-- What was computed, and what comes after it. -/
theorem follows_computed {r : Except ε α} {f : α → Prog E R ε β} {Q : Except ε β → τ → Prop}
    (he : ∀ error, Q (.error error) s) (hf : ∀ value, r = .ok value → P.Follows s (f value) Q) :
    P.Follows s (.ofExcept r >>= f) Q := by
  cases r with
  | error error => exact he error
  | ok value => exact hf value rfl

/-- What was checked, and what comes after it. -/
theorem follows_checked {p : Prop} [Decidable p] {error : ε} {f : Unit → Prog E R ε β}
    {Q : Except ε β → τ → Prop} (he : Q (.error error) s) (hf : p → P.Follows s (f ()) Q) :
    P.Follows s (.insist p error >>= f) Q :=
  follows_bind.mpr (follows_insist.mpr ⟨hf, fun _ => he⟩)

end Protocol

/-! ## 4. Many programs over one world -/

/-- A world that answers requests, and that others may change between them. -/
structure Surroundings (ι E : Type) (R : E → Type) (W : Type) where
  start : W → Prop
  answers : W → ι → (request : E) → R request → W → Prop
  changes : W → W → Prop

/-- A request with its answer, or a change of the world by others. -/
inductive Deed (ι E : Type) (R : E → Type) where
  | asked (i : ι) (request : E) (answer : R request)
  | changed

namespace Surroundings

variable {ι W : Type} [DecidableEq ι] (S : Surroundings ι E R W)

/-- One step of one program, or of the others. -/
inductive CrewStep : W × (ι → Prog E R ε α) → Deed ι E R → W × (ι → Prog E R ε α) → Prop where
  | asked (w w' : W) (programs : ι → Prog E R ε α) (i : ι) (request : E) (answer : R request)
      (next : R request → Prog E R ε α) (hi : programs i = .ask request next)
      (h : S.answers w i request answer w') :
      CrewStep (w, programs) (.asked i request answer)
        (w', Function.update programs i (next answer))
  | changed (w w' : W) (programs : ι → Prog E R ε α) (h : S.changes w w') :
      CrewStep (w, programs) .changed (w', programs)

/-- The runs of the programs; one that is not continued has crashed, or waits. -/
def crew (programs : ι → Prog E R ε α) : Labelled (Deed ι E R) (W × (ι → Prog E R ε α)) where
  start s := S.start s.1 ∧ s.2 = programs
  step := CrewStep S

variable {S}

/-- At a place of a run, the programs follow their protocols from their stages, and these and
the world satisfy a condition. -/
def Orderly (P : ι → Protocol E R τ) (I : List (Deed ι E R) → W → (ι → τ) → Prop)
    (run : List (Deed ι E R)) (s : W × (ι → Prog E R ε α)) : Prop :=
  ∃ stage, I run s.1 stage ∧ ∀ i, (P i).Follows (stage i) (s.2 i) fun _ _ => True

variable {P : ι → Protocol E R τ} {I : List (Deed ι E R) → W → (ι → τ) → Prop}
  {run : List (Deed ι E R)} {s s' : W × (ι → Prog E R ε α)}

/-- What is asked next is allowed at the stage of its program. -/
theorem Orderly.asks {i : ι} {request : E} {answer : R request} (h : Orderly P I run s)
    (hs : CrewStep S s (.asked i request answer) s') :
    ∃ stage, I run s.1 stage ∧ (P i).allows (stage i) request := by
  obtain ⟨stage, hI, hfollows⟩ := h
  cases hs with
  | asked w w' tasks i request answer next hi h =>
      have hfi := hfollows i
      rw [show (w, tasks).2 i = Prog.ask request next from hi] at hfi
      exact ⟨stage, hI, hfi.1⟩

/-- The same, with a condition on how each program ends. -/
def OrderlyTo (P : ι → Protocol E R τ) (Q : ι → Except ε α → τ → Prop)
    (I : List (Deed ι E R) → W → (ι → τ) → Prop) (run : List (Deed ι E R))
    (s : W × (ι → Prog E R ε α)) : Prop :=
  ∃ stage, I run s.1 stage ∧ ∀ i, (P i).Follows (stage i) (s.2 i) (Q i)

/-- The rule for many programs: each follows its protocol, and what holds of the world and the
stages is kept by every request that is allowed and by every change. -/
theorem crew_invariant_to {Q : ι → Except ε α → τ → Prop} {programs : ι → Prog E R ε α} (first : τ)
    (hprograms : ∀ i, (P i).Follows first (programs i) (Q i))
    (hstart : ∀ w, S.start w → I [] w fun _ => first)
    (hask : ∀ run w stage i request answer w', I run w stage → (P i).allows (stage i) request →
      S.answers w i request answer w' → I (run ++ [.asked i request answer]) w'
        (Function.update stage i ((P i).next (stage i) request answer)))
    (hchange : ∀ run w stage w', I run w stage → S.changes w w' → I (run ++ [.changed]) w' stage)
    (h : (S.crew programs).Trace run s) : OrderlyTo P Q I run s := by
  refine h.invariant (OrderlyTo P Q I) ?_ ?_
  · intro ⟨w, tasks⟩ ⟨hw, htasks⟩
    refine ⟨fun _ => first, hstart w hw, ?_⟩
    rw [show tasks = programs from htasks]
    exact hprograms
  · intro run s deed s' _ ⟨stage, hI, hfollows⟩ hstep
    cases hstep with
    | asked w w' tasks i request answer next hi h =>
        have hfi := hfollows i
        rw [show (w, tasks).2 i = Prog.ask request next from hi] at hfi
        refine ⟨Function.update stage i ((P i).next (stage i) request answer),
          hask run w stage i request answer w' hI hfi.1 h, fun j => ?_⟩
        show (P j).Follows _ (Function.update tasks i (next answer) j) _
        by_cases hj : j = i
        · cases hj
          rw [Function.update_self, Function.update_self]
          exact hfi.2 answer
        · rw [Function.update_of_ne hj, Function.update_of_ne hj]
          exact hfollows j
    | changed w w' tasks h => exact ⟨stage, hchange run w stage w' hI h, hfollows⟩

/-- The rule without conditions on the ends. -/
theorem crew_invariant {programs : ι → Prog E R ε α} (first : τ)
    (hprograms : ∀ i, (P i).Follows first (programs i) fun _ _ => True)
    (hstart : ∀ w, S.start w → I [] w fun _ => first)
    (hask : ∀ run w stage i request answer w', I run w stage → (P i).allows (stage i) request →
      S.answers w i request answer w' → I (run ++ [.asked i request answer]) w'
        (Function.update stage i ((P i).next (stage i) request answer)))
    (hchange : ∀ run w stage w', I run w stage → S.changes w w' → I (run ++ [.changed]) w' stage)
    (h : (S.crew programs).Trace run s) : Orderly P I run s :=
  crew_invariant_to first hprograms hstart hask hchange h

/-- A run that goes on with one program alone, where the world has an answer to each of its
requests. -/
theorem runs_alone {programs tasks : ι → Prog E R ε α} {i : ι} {w : W}
    {run : List (Deed ι E R)} (respond : W → (request : E) → R request × W)
    (hrespond : ∀ w request, S.answers w i request (respond w request).1 (respond w request).2)
    (h : (S.crew programs).Trace run (w, tasks)) : ∃ run', (S.crew programs).Trace run'
      (((tasks i).run respond w).2,
        Function.update tasks i (.ofExcept ((tasks i).run respond w).1)) := by
  generalize hi : tasks i = p
  induction p generalizing run w tasks with
  | ret value =>
      have hsame : Function.update tasks i (.ret value) = tasks :=
        Function.update_eq_self_iff.mpr hi.symm
      exact ⟨run, by rw [← hsame] at h; exact h⟩
  | raise error =>
      have hsame : Function.update tasks i (.raise error) = tasks :=
        Function.update_eq_self_iff.mpr hi.symm
      exact ⟨run, by rw [← hsame] at h; exact h⟩
  | ask request next ih =>
      have hstep : (S.crew programs).step (w, tasks) (.asked i request (respond w request).1)
          ((respond w request).2, Function.update tasks i (next (respond w request).1)) :=
        .asked w _ tasks i request _ next hi (hrespond w request)
      obtain ⟨run', hrun⟩ := ih _ (h.step _ hstep) (Function.update_self _ _ _)
      rw [Function.update_idem] at hrun
      exact ⟨run', hrun⟩

end Surroundings

end NokincFactory
