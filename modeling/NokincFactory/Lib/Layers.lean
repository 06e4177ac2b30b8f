/-
  File:      NokincFactory/Lib/Layers.lean
  Subject:   Programs whose requests are programs of a layer below, and what a program asks for.

  * `Prog.over`: each request is answered by a program of the layer below;
  * `Protocol.Follows.over`: the rule for it, with a relation between the stages of both layers;
  * `Prog.Only`: whatever is answered, a program asks nothing else; one rule for each connective;
  * `Prog.Only.stays`: it leaves a stage that none of its requests changes;
  * `Deed.ofProgram`: what one program of many asked in a run, with the answers.
-/
import NokincFactory.Lib.Programs

namespace NokincFactory

variable {E E' : Type} {R : E → Type} {R' : E' → Type} {ε α β τ τ' : Type}

/-! ## 1. Layers -/

/-- A program whose requests are programs. -/
def Prog.over (h : (request : E) → Prog E' R' ε (R request)) : Prog E R ε α → Prog E' R' ε α
  | .ret value => .ret value
  | .raise error => .raise error
  | .ask request next => (h request).bind fun answer => (next answer).over h

namespace Protocol

variable {P : Protocol E R τ} {P' : Protocol E' R' τ'} {s : τ} {t : τ'}

/-- What follows a protocol follows a protocol below, where each request that is allowed above
does below what its answer does above. -/
theorem Follows.over {Related : τ → τ' → Prop} {h : (request : E) → Prog E' R' ε (R request)}
    {Q : Except ε α → τ → Prop} {p : Prog E R ε α} (hp : P.Follows s p Q) (hst : Related s t)
    (hbelow : ∀ s t request, Related s t → P.allows s request →
      P'.Follows t (h request) fun r t' => ∃ answer, r = .ok answer ∧
        Related (P.next s request answer) t') :
    P'.Follows t (p.over h) fun r t' => ∃ s', Related s' t' ∧ Q r s' := by
  induction p generalizing s t with
  | ret value => exact ⟨s, hst, hp⟩
  | raise error => exact ⟨s, hst, hp⟩
  | ask request next ih =>
      refine Follows.seq (f := fun answer => (next answer).over h)
        (hbelow s t request hst hp.1) (fun error t' hr => ?_) fun answer t' hr => ?_
      · obtain ⟨answer, hfalse, -⟩ := hr
        cases hfalse
      · obtain ⟨answer', hsame, hrelated⟩ := hr
        cases hsame
        exact ih answer (hp.2 answer) hrelated

end Protocol

/-! ## 2. What is asked for -/

namespace Prog

variable {ok : E → Prop}

/-- Whatever is answered, the program asks only for what is so. -/
def Only (ok : E → Prop) : Prog E R ε α → Prop
  | ret _ => True
  | raise _ => True
  | ask request next => ok request ∧ ∀ answer, (next answer).Only ok

theorem only_pure (value : α) : (pure value : Prog E R ε α).Only ok := trivial

theorem only_raise (error : ε) : (raise error : Prog E R ε α).Only ok := trivial

theorem only_ofExcept (r : Except ε α) : (ofExcept r : Prog E R ε α).Only ok := by
  cases r with
  | ok value => trivial
  | error error => trivial

theorem only_insist (p : Prop) [Decidable p] (error : ε) :
    (insist p error : Prog E R ε Unit).Only ok := by
  unfold insist
  by_cases hp : p
  · rw [if_pos hp]
    trivial
  · rw [if_neg hp]
    trivial

theorem only_send {request : E} (h : ok request) :
    (send request : Prog E R ε (R request)).Only ok := ⟨h, fun _ => trivial⟩

theorem Only.bind {p : Prog E R ε α} {f : α → Prog E R ε β} (hp : p.Only ok)
    (hf : ∀ value, (f value).Only ok) : (p >>= f).Only ok := by
  show (p.bind f).Only ok
  induction p with
  | ret value => exact hf value
  | raise error => trivial
  | ask request next ih => exact ⟨hp.1, fun answer => ih answer (hp.2 answer)⟩

/-- What was computed, and what comes after it. -/
theorem only_computed {r : Except ε α} {f : α → Prog E R ε β}
    (hf : ∀ value, r = .ok value → (f value).Only ok) : (.ofExcept r >>= f).Only ok := by
  cases r with
  | ok value => exact hf value rfl
  | error error => trivial

theorem Only.attempt {p : Prog E R ε α} (hp : p.Only ok) : p.attempt.Only ok := by
  induction p with
  | ret value => trivial
  | raise error => trivial
  | ask request next ih => exact ⟨hp.1, fun answer => ih answer (hp.2 answer)⟩

/-- What asks only for what leaves a stage leaves the stage. -/
theorem Only.stays {P : Protocol E R τ} {s : τ} {p : Prog E R ε α} (hp : p.Only ok)
    (hs : ∀ request, ok request → P.allows s request ∧ ∀ answer, P.next s request answer = s) :
    P.Stays s p := by
  induction p with
  | ret value => exact Protocol.stays_pure value
  | raise error => exact Protocol.stays_raise error
  | ask request next ih =>
      refine ⟨(hs request hp.1).1, fun answer => ?_⟩
      rw [(hs request hp.1).2 answer]
      exact ih answer (hp.2 answer)

end Prog

/-! ## 3. What one program of many asked -/

section Deeds

variable {ι : Type} [DecidableEq ι] {run run' : List (Deed ι E R)}

/-- What a program asked in a run, with the answers. -/
def Deed.ofProgram (i : ι) (run : List (Deed ι E R)) : List (Σ request, R request) :=
  run.filterMap fun
    | .asked j request answer => if j = i then some ⟨request, answer⟩ else none
    | .changed => none

namespace Deed

theorem ofProgram_asked (i j : ι) (request : E) (answer : R request) :
    ofProgram j (run ++ [.asked i request answer]) =
      Function.update (fun j => ofProgram j run) i (ofProgram i run ++ [⟨request, answer⟩]) j := by
  have happend : ofProgram j (run ++ [.asked i request answer]) =
      ofProgram j run ++ ofProgram j [.asked i request answer] := List.filterMap_append
  rw [happend]
  by_cases hj : j = i
  · have hone : ofProgram j [.asked i request answer] = [⟨request, answer⟩] := by
      simp [ofProgram, hj]
    rw [hone, hj, Function.update_self]
  · have hnone : ofProgram j [.asked i request answer] = [] := by
      simp [ofProgram, Ne.symm hj]
    rw [hnone, List.append_nil, Function.update_of_ne hj]

theorem ofProgram_changed (i : ι) : ofProgram i (run ++ [.changed]) = ofProgram i run := by
  have happend : ofProgram i (run ++ [.changed]) = ofProgram i run ++ ofProgram i [.changed] :=
    List.filterMap_append
  rw [happend]
  exact List.append_nil _

theorem ofProgram_prefix (i : ι) (h : run <+: run') : ofProgram i run <+: ofProgram i run' := by
  obtain ⟨later, rfl⟩ := h
  have happend : ofProgram i (run ++ later) = ofProgram i run ++ ofProgram i later :=
    List.filterMap_append
  rw [happend]
  exact List.prefix_append _ _

end Deed

end Deeds

end NokincFactory
