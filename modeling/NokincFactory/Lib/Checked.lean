/-
  File:      NokincFactory/Lib/Checked.lean
  Subject:   Computations that may raise, as `Except`.

  A function that raises reads here as a chain of guards. What its callers need
  is the inversion of such a chain: from `chain = .ok r`, every guard held and
  every intermediate call returned. The rules are one equivalence for each
  connective, so that `simp` turns a whole body into a conjunction:

  * `Except.bind_ok`, `Except.seq_ok`: a composition returned iff both halves did;
  * `Except.bind_error`, `Except.bind_ne_error`: where what a composition raised came from;
  * `guardThat`, `guardThat_ok`: a guard passes iff its condition holds;
  * `whenThat`, `whenThat_ok`: a check that is made only under a condition;
  * `List.forM_ok`, `List.mapM_ok`: a loop returned iff each round did;
  * `Except.liftWith`, `Except.liftWith_ok`: running a narrower error type inside
    a wider one.
-/
import Mathlib.Data.List.Basic

namespace NokincFactory

variable {ε ε' α β : Type}

theorem Except.bind_ok {x : Except ε α} {f : α → Except ε β} {b : β} :
    (x >>= f) = .ok b ↔ ∃ a, x = .ok a ∧ f a = .ok b := by
  cases x with
  | error e => simp [bind, Except.bind]
  | ok a => simp [bind, Except.bind]

/-- What returned, bound, is the continuation at what it returned. -/
theorem Except.ok_bind {a : α} {f : α → Except ε β} : (Except.ok a >>= f) = f a := rfl

theorem Except.seq_ok {x : Except ε Unit} {f : Unit → Except ε β} {b : β} :
    (x >>= f) = .ok b ↔ x = .ok () ∧ f () = .ok b := by
  rw [Except.bind_ok]
  constructor
  · rintro ⟨⟨⟩, hx, hf⟩
    exact ⟨hx, hf⟩
  · rintro ⟨hx, hf⟩
    exact ⟨(), hx, hf⟩

theorem Except.bind_error {x : Except ε α} {f : α → Except ε β} {e : ε} :
    (x >>= f) = .error e ↔ x = .error e ∨ ∃ a, x = .ok a ∧ f a = .error e := by
  cases x with
  | error e' => simp [bind, Except.bind]
  | ok a => simp [bind, Except.bind]

/-- A composition raises nothing that its halves do not. -/
theorem Except.bind_ne_error {x : Except ε α} {f : α → Except ε β} {e : ε} (hx : x ≠ .error e)
    (hf : ∀ a, f a ≠ .error e) : (x >>= f) ≠ .error e := by
  intro h
  rcases Except.bind_error.mp h with h | ⟨a, -, h⟩
  · exact hx h
  · exact hf a h

theorem Except.map_ok {f : α → β} {x : Except ε α} {b : β} :
    x.map f = .ok b ↔ ∃ a, x = .ok a ∧ f a = b := by
  cases x with
  | error e => simp [Except.map]
  | ok a => simp [Except.map]

theorem Except.pure_ok {a b : α} : (pure a : Except ε α) = .ok b ↔ a = b := by
  simp [pure, Except.pure]

/-- Pass when the condition holds, raise otherwise. -/
def guardThat (p : Prop) [Decidable p] (e : ε) : Except ε Unit :=
  if p then .ok () else .error e

theorem guardThat_ok {p : Prop} [Decidable p] {e : ε} {u : Unit} :
    guardThat p e = .ok u ↔ p := by
  unfold guardThat
  by_cases hp : p
  · simp [hp]
  · simp [hp]

/-- A guard whose condition holds. -/
theorem guardThat_pass {p : Prop} [Decidable p] {e : ε} (h : p) : guardThat p e = .ok () :=
  if_pos h

theorem guardThat_fail {p : Prop} [Decidable p] {e : ε} (h : ¬ p) : guardThat p e = .error e :=
  if_neg h

theorem guardThat_error {p : Prop} [Decidable p] {e e' : ε} :
    guardThat p e = .error e' ↔ ¬ p ∧ e = e' := by
  unfold guardThat
  by_cases hp : p
  · simp [hp]
  · simp [hp]

theorem guardThat_ne_error {p : Prop} [Decidable p] {e e' : ε} (h : e ≠ e') :
    guardThat p e ≠ .error e' :=
  fun hg => h (guardThat_error.mp hg).2

/-- Run a check only under a condition. -/
def whenThat (p : Prop) [Decidable p] (x : Except ε Unit) : Except ε Unit :=
  if p then x else .ok ()

theorem whenThat_ok {p : Prop} [Decidable p] {x : Except ε Unit} {u : Unit} :
    whenThat p x = .ok u ↔ (p → x = .ok ()) := by
  unfold whenThat
  by_cases hp : p
  · simp [hp]
  · simp [hp]

/-- A loop of checks over a list passes iff the check passes on every element. -/
theorem List.forM_ok {f : α → Except ε Unit} {u : Unit} :
    ∀ {l : List α}, l.forM f = .ok u ↔ ∀ x ∈ l, f x = .ok ()
  | [] => by simp [Except.pure_ok]
  | a :: l => by
      rw [List.forM_eq_forM, List.forM_cons, Except.bind_ok, ← List.forM_eq_forM]
      constructor
      · rintro ⟨⟨⟩, ha, hl⟩ x hx
        rcases List.mem_cons.mp hx with rfl | hx
        · exact ha
        · exact List.forM_ok.mp hl x hx
      · intro h
        exact ⟨(), h a List.mem_cons_self,
          List.forM_ok.mpr fun x hx => h x (List.mem_cons_of_mem _ hx)⟩

/-- A comprehension that may raise returned iff it did on every element. -/
theorem List.mapM_ok {f : α → Except ε β} :
    ∀ {l : List α} {l' : List β}, l.mapM f = .ok l' ↔ List.Forall₂ (fun a b => f a = .ok b) l l'
  | [], l' => by
      rw [List.mapM_nil, Except.pure_ok]
      constructor
      · rintro rfl
        exact .nil
      · intro h
        cases h
        rfl
  | a :: l, l' => by
      rw [List.mapM_cons, Except.bind_ok]
      constructor
      · rintro ⟨b, hb, h⟩
        obtain ⟨bs, hbs, hp⟩ := Except.bind_ok.mp h
        obtain rfl := Except.pure_ok.mp hp
        exact .cons hb (List.mapM_ok.mp hbs)
      · intro h
        cases h with
        | cons hb hbs =>
            exact ⟨_, hb, Except.bind_ok.mpr ⟨_, List.mapM_ok.mpr hbs, rfl⟩⟩

/-- Every element on the right of a pointwise relation stands against one on the left. -/
theorem exists_of_forall₂ {R : α → β → Prop} {l : List α} {l' : List β}
    (h : List.Forall₂ R l l') {b : β} (hb : b ∈ l') : ∃ a ∈ l, R a b := by
  induction h with
  | nil => cases hb
  | cons hr _ ih =>
      rcases List.mem_cons.mp hb with rfl | hb
      · exact ⟨_, List.mem_cons_self, hr⟩
      · obtain ⟨a, ha, hab⟩ := ih hb
        exact ⟨a, List.mem_cons_of_mem _ ha, hab⟩

/-- Run a computation with a narrower error type inside a wider one. -/
def Except.liftWith (wide : ε → ε') : Except ε α → Except ε' α
  | .ok a => .ok a
  | .error e => .error (wide e)

theorem Except.liftWith_ok {wide : ε → ε'} {x : Except ε α} {a : α} :
    Except.liftWith wide x = .ok a ↔ x = .ok a := by
  cases x with
  | error e => simp [Except.liftWith]
  | ok b => simp [Except.liftWith]

theorem Except.liftWith_bind {wide : ε → ε'} {x : Except ε α} {f : α → Except ε β} :
    Except.liftWith wide (x >>= f) = Except.liftWith wide x >>= fun a => Except.liftWith wide (f a) := by
  cases x with
  | error e => rfl
  | ok a => rfl

theorem Except.liftWith_ne_error {wide : ε → ε'} {x : Except ε α} {e' : ε'}
    (h : ∀ e, wide e ≠ e') : Except.liftWith wide x ≠ .error e' := by
  cases x with
  | error e => exact fun he => h e (Except.error.inj he)
  | ok a => exact fun he => by cases he

instance decidableOk [DecidableEq α] (x : Except ε α) (a : α) : Decidable (x = .ok a) :=
  match x with
  | .ok b => decidable_of_iff (b = a) (by simp)
  | .error _ => isFalse fun h => by cases h

/-- A computation that does not return has raised. -/
theorem Except.error_of_not_ok {x : Except ε α} (h : ∀ a, x ≠ .ok a) : ∃ e, x = .error e := by
  cases x with
  | error e => exact ⟨e, rfl⟩
  | ok a => exact absurd rfl (h a)

end NokincFactory
