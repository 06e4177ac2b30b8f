/-
  File:      NokincFactory/Lib/RowTable.lean
  Subject:   One table with a key, and programs that change its rows in transactions.

  A row that a transaction has changed or locked is its own until it ends; the others see what
  it wrote once it is committed. The table keeps all versions of a row, each with the program
  that wrote it, so that what happened to a row can be read off it.

  * `RowAsk`: the statements, and questions about something else;
  * `RowTable`, `RowTable.Answers`: the table, and what a statement does;
  * `Chained`: versions of a row, each a legal change of the one before;
  * `rowProtocol`: a program that makes one legal change, in one transaction;
  * `RowsSound`: what such programs keep, along every run (`rows_sound`).
-/
import Mathlib.Data.Fintype.Basic
import Mathlib.Data.List.Nodup
import Mathlib.Data.List.Sort
import NokincFactory.Lib.Programs

namespace NokincFactory

/-! ## 1. Statements -/

/-- Rows with a key. -/
class KeyedRow (V : Type) (K : outParam Type) where
  key : V → K

/-- A statement on a table, or a question about something else. -/
inductive RowAsk (Q K V : Type) where
  | begin
  | look (question : Q)
  | select (key : K)
  /-- `SELECT … WHERE p ORDER BY order FOR UPDATE SKIP LOCKED` -/
  | lockWhere (p : V → Bool) (order : V → ℤ)
  /-- `INSERT … ON CONFLICT DO NOTHING` -/
  | insert (row : V)
  /-- `UPDATE … SET f WHERE key AND p` -/
  | update (key : K) (p : V → Bool) (f : V → V)
  | commit
  | rollback

variable {Q K V ε ι α : Type}

/-- What a statement returns; an insertion and an update return the row that they wrote, if they
wrote one, which is the one that `rowcount` counts. -/
@[reducible] def RowAsk.Value : RowAsk Q K V → Type
  | .look _ => Bool
  | .select _ => Option V
  | .lockWhere _ _ => List V
  | .insert _ => Option V
  | .update _ _ _ => Option V
  | _ => Unit

/-- A statement may fail instead. -/
abbrev RowAsk.Answer (ε : Type) (r : RowAsk Q K V) : Type := Except ε r.Value

/-! ## 2. The table -/

/-- A transaction that has not ended: the rows that it holds, and what it has written. -/
structure RowSession (K V : Type) where
  locked : List K
  written : K → Option V

/-- What a transaction has written, with one more row, which it holds from now on. -/
def RowSession.write [DecidableEq K] [KeyedRow V K] (s : RowSession K V) (v : V) :
    RowSession K V where
  locked := KeyedRow.key v :: s.locked
  written := Function.update s.written (KeyedRow.key v) (some v)

/-- All versions of each row, with the program that wrote it, the latest last; and the
transactions. -/
structure RowTable (ι K V : Type) where
  versions : K → List (ι × V)
  sessions : ι → Option (RowSession K V)

/-- The latest version. -/
def latestOf (versions : List (ι × V)) : Option V := versions.getLast?.map Prod.snd

namespace RowTable

/-- A table without rows. -/
def empty : RowTable ι K V := ⟨fun _ => [], fun _ => none⟩

/-- What is committed under a key. -/
def row (w : RowTable ι K V) (k : K) : Option V := latestOf (w.versions k)

/-- What a transaction sees under a key. -/
def seen (w : RowTable ι K V) (s : RowSession K V) (k : K) : Option V := (s.written k).or (w.row k)

/-- No other transaction holds the row. -/
def Free (w : RowTable ι K V) (i : ι) (k : K) : Prop :=
  ∀ j, j ≠ i → ∀ s ∈ w.sessions j, k ∉ s.locked

variable [DecidableEq ι]

def enter (w : RowTable ι K V) (i : ι) (s : Option (RowSession K V)) : RowTable ι K V :=
  { w with sessions := Function.update w.sessions i s }

/-- What a transaction wrote becomes the latest version. -/
def commit (w : RowTable ι K V) (i : ι) (s : RowSession K V) : RowTable ι K V where
  versions k := w.versions k ++ ((s.written k).map fun v => (i, v)).toList
  sessions := Function.update w.sessions i none

variable [DecidableEq K] [KeyedRow V K]

/-- One statement of a program. A statement that has to wait for a row is answered later. -/
inductive Answers : RowTable ι K V → ι → (r : RowAsk Q K V) → r.Answer ε → RowTable ι K V → Prop
    where
  | begin (w : RowTable ι K V) (i : ι) :
      Answers w i .begin (.ok ()) (w.enter i (some ⟨[], fun _ => none⟩))
  | look (w : RowTable ι K V) (i : ι) (question : Q) (answer : Bool) :
      Answers w i (.look question) (.ok answer) w
  | select (w : RowTable ι K V) (i : ι) (k : K) (s : RowSession K V) (hs : w.sessions i = some s) :
      Answers w i (.select k) (.ok (w.seen s k)) w
  /-- rows that match and that no other transaction holds; others are skipped -/
  | lockWhere (w : RowTable ι K V) (i : ι) (p : V → Bool) (order : V → ℤ) (found : List V)
      (s : RowSession K V) (hs : w.sessions i = some s)
      (hfound : ∀ v ∈ found, w.seen s (KeyedRow.key v) = some v ∧ p v = true ∧
        w.Free i (KeyedRow.key v))
      (horder : found.Pairwise fun v v' => order v ≤ order v') :
      Answers w i (.lockWhere p order) (.ok found)
        (w.enter i (some { s with locked := found.map KeyedRow.key ++ s.locked }))
  | insert (w : RowTable ι K V) (i : ι) (v : V) (s : RowSession K V) (hs : w.sessions i = some s)
      (hnew : w.seen s (KeyedRow.key v) = none) (hfree : w.Free i (KeyedRow.key v)) :
      Answers w i (.insert v) (.ok (some v)) (w.enter i (some (s.write v)))
  | conflict (w : RowTable ι K V) (i : ι) (v old : V) (s : RowSession K V)
      (hs : w.sessions i = some s) (hold : w.seen s (KeyedRow.key v) = some old) :
      Answers w i (.insert v) (.ok none) w
  | update (w : RowTable ι K V) (i : ι) (k : K) (p : V → Bool) (f : V → V) (v : V)
      (s : RowSession K V) (hs : w.sessions i = some s) (hv : w.seen s k = some v)
      (hp : p v = true) (hfree : w.Free i k) :
      Answers w i (.update k p f) (.ok (some (f v))) (w.enter i (some (s.write (f v))))
  | missed (w : RowTable ι K V) (i : ι) (k : K) (p : V → Bool) (f : V → V) (s : RowSession K V)
      (hs : w.sessions i = some s) (hnone : ∀ v, w.seen s k = some v → p v = false) :
      Answers w i (.update k p f) (.ok none) w
  /-- the answer may be lost -/
  | commit (w : RowTable ι K V) (i : ι) (s : RowSession K V) (answer : Except ε Unit)
      (hs : w.sessions i = some s) : Answers w i .commit answer (w.commit i s)
  | commitFails (w : RowTable ι K V) (i : ι) (e : ε) :
      Answers w i .commit (.error e) (w.enter i none)
  | rollback (w : RowTable ι K V) (i : ι) (answer : Except ε Unit) :
      Answers w i .rollback answer (w.enter i none)
  | fails (w : RowTable ι K V) (i : ι) (r : RowAsk Q K V) (e : ε)
      (hr : r ≠ .commit ∧ r ≠ .rollback) : Answers w i r (.error e) w

/-- A session is lost, and its transaction with it. -/
inductive Changes : RowTable ι K V → RowTable ι K V → Prop where
  | lost (w : RowTable ι K V) (i : ι) : Changes w (w.enter i none)

end RowTable

/-- The programs' surroundings: the table, empty at first. -/
def rowSurroundings (ι Q K V ε : Type) [DecidableEq ι] [DecidableEq K] [KeyedRow V K] :
    Surroundings ι (RowAsk Q K V) (RowAsk.Answer ε) (RowTable ι K V) where
  start w := w = RowTable.empty
  answers := RowTable.Answers
  changes := RowTable.Changes

/-! ## 3. Versions -/

/-- Versions of a row, each a legal change of the one before. -/
inductive Chained (legal : ι → Option V → V → Prop) : List (ι × V) → Prop where
  | nil : Chained legal []
  | snoc {l : List (ι × V)} (i : ι) (v : V) (h : Chained legal l) (hv : legal i (latestOf l) v) :
      Chained legal (l ++ [(i, v)])

@[simp] theorem latestOf_nil : latestOf ([] : List (ι × V)) = none := rfl

@[simp] theorem latestOf_snoc {l : List (ι × V)} {i : ι} {v : V} :
    latestOf (l ++ [(i, v)]) = some v := by
  simp [latestOf]

theorem latestOf_eq_none {l : List (ι × V)} : latestOf l = none ↔ l = [] := by
  simp [latestOf]

namespace Chained

variable {legal : ι → Option V → V → Prop} {l pre post : List (ι × V)} {i : ι} {v : V}

/-- The first versions of a row are versions of it. -/
theorem before (h : Chained legal (pre ++ post)) : Chained legal pre := by
  induction post using List.reverseRecOn with
  | nil => rwa [List.append_nil] at h
  | append_singleton post e ih =>
      rw [← List.append_assoc] at h
      generalize hl : pre ++ post ++ [e] = l at h
      cases h with
      | nil => simp at hl
      | snoc i v h hv =>
          obtain ⟨rfl, -⟩ := List.append_inj' hl rfl
          exact ih h

/-- Each version is a legal change of the one before. -/
theorem change (h : Chained legal (pre ++ (i, v) :: post)) : legal i (latestOf pre) v := by
  rw [← List.singleton_append, ← List.append_assoc] at h
  have hfirst := h.before
  generalize hl : pre ++ [(i, v)] = l at hfirst
  cases hfirst with
  | nil => simp at hl
  | snoc j v' hc hv =>
      obtain ⟨rfl, he⟩ := List.append_inj' hl rfl
      cases he
      exact hv

end Chained

/-! ## 4. One change in one transaction -/

inductive RowPhase where
  | before | within | over
  /-- nobody heard how the transaction ended -/
  | unsure
deriving DecidableEq

/-- Where a program is: its transaction, the first row that it locked, the row that it wrote, the
row that it selected last, with its key, and what the answers so far are known to be. -/
structure RowStage (K V : Type) where
  phase : RowPhase
  held : Option V
  written : Option V
  selected : Option (K × V)
  known : Prop

def RowStage.first : RowStage K V := ⟨.before, none, none, none, True⟩

section OneChange

variable [KeyedRow V K]

/-- A row that may be current while the first locked row is held. -/
def RowStage.Current (s : RowStage K V) (v : V) : Prop :=
  ∀ h ∈ s.held, KeyedRow.key h = KeyedRow.key v → h = v

/-- A row that is fine wherever it is a legal change of a fine one. -/
def KeepsFine (legal : Option V → V → Prop) (fine : V → Prop) (v : V) : Prop :=
  ∀ before, legal before v → (∀ b ∈ before, fine b) → fine v

/-- A program that writes one row at most, only by a legal change, and commits it only if it
keeps rows fine. -/
def rowProtocol (legal : Option V → V → Prop) (fine : V → Prop) :
    Protocol (RowAsk Q K V) (RowAsk.Answer ε) (RowStage K V) where
  allows s r := s.known → match r with
    | .begin => s = .first
    | .lockWhere _ _ => s.held = none ∧ s.written = none
    | .insert v => s.written = none ∧ legal none v
    | .update k p f => s.written = none ∧ ∀ v, s.Current v → KeyedRow.key v = k → p v = true →
        KeyedRow.key (f v) = k ∧ legal (some v) (f v)
    | .commit => s.phase = .within ∧ ∀ v ∈ s.written, KeepsFine legal fine v
    | .rollback => s.phase = .within
    | _ => True
  next s
    | .begin, .ok _ => { s with phase := .within }
    | .select k, .ok found => { s with selected := found.map fun v => (k, v) }
    | .lockWhere p _, .ok found =>
        { s with held := found.head?, known := s.known ∧ ∀ v ∈ found, p v = true }
    | .insert v, .ok written => { s with written := written.map fun _ => v }
    -- a row that is held is there to be updated
    | .update k p f, .ok written =>
        { s with
          written := written
          known := s.known ∧ ∀ h ∈ s.held, KeyedRow.key h = k → p h = true → written = some (f h) }
    | .commit, .ok _ => { s with phase := .over }
    | .commit, .error _ => { s with phase := .unsure }
    | .rollback, _ => { s with phase := .over, held := none, written := none, selected := none }
    | _, _ => s

/-- What a program's stage says about the table. -/
structure RowStage.Fits (st : RowStage K V) (legal : ι → Option V → V → Prop)
    (w : RowTable ι K V) (i : ι) : Prop where
  known : st.known
  within : ∀ s ∈ w.sessions i, st.phase = .within
  wrote : ∀ s ∈ w.sessions i, ∀ k v, s.written k = some v ↔ st.written = some v ∧ KeyedRow.key v = k
  change : ∀ s ∈ w.sessions i, ∀ v ∈ st.written,
    KeyedRow.key v ∈ s.locked ∧ legal i (w.row (KeyedRow.key v)) v
  held : ∀ s ∈ w.sessions i, ∀ h ∈ st.held,
    KeyedRow.key h ∈ s.locked ∧ w.row (KeyedRow.key h) = some h
  ended : ∀ k v, (i, v) ∈ w.versions k →
    (st.phase = .over ∨ st.phase = .unsure) ∧ st.written = some v
  committed : st.phase = .over → ∀ v ∈ st.written, (i, v) ∈ w.versions (KeyedRow.key v)
  selected : ∀ k v, st.selected = some (k, v) →
    (∃ j, (j, v) ∈ w.versions k) ∨ (st.written = some v ∧ KeyedRow.key v = k)

/-- What programs keep that each make one legal change. -/
structure RowsSound (legal : ι → Option V → V → Prop) (fine : V → Prop) (w : RowTable ι K V)
    (stage : ι → RowStage K V) : Prop where
  chained : ∀ k, Chained legal (w.versions k)
  keyed : ∀ k, ∀ e ∈ w.versions k, KeyedRow.key e.2 = k
  fine : ∀ k, ∀ e ∈ w.versions k, fine e.2
  once : ∀ k, ((w.versions k).map Prod.fst).Nodup
  exclusive : ∀ i j s t k, w.sessions i = some s → w.sessions j = some t → k ∈ s.locked →
    k ∈ t.locked → i = j
  fits : ∀ i, (stage i).Fits legal w i

variable {legal : ι → Option V → V → Prop} {w w' : RowTable ι K V} {stage : ι → RowStage K V}
  {fine : V → Prop} {st : RowStage K V} {i : ι}

/-- What others do: the rows that a program holds stay as they are. -/
theorem RowStage.Fits.frame (h : st.Fits legal w i)
    (hsession : ∀ s ∈ w'.sessions i, s ∈ w.sessions i)
    (hgrows : ∀ k, w.versions k ⊆ w'.versions k)
    (hown : ∀ k v, (i, v) ∈ w'.versions k → (i, v) ∈ w.versions k)
    (hrow : ∀ s ∈ w.sessions i, ∀ k ∈ s.locked, w'.row k = w.row k) : st.Fits legal w' i where
  known := h.known
  within s hs := h.within s (hsession s hs)
  wrote s hs := h.wrote s (hsession s hs)
  change s hs v hv := by
    obtain ⟨hlocked, hlegal⟩ := h.change s (hsession s hs) v hv
    rw [hrow s (hsession s hs) _ hlocked]
    exact ⟨hlocked, hlegal⟩
  held s hs v hv := by
    obtain ⟨hlocked, hrow'⟩ := h.held s (hsession s hs) v hv
    rw [hrow s (hsession s hs) _ hlocked]
    exact ⟨hlocked, hrow'⟩
  ended k v hv := h.ended k v (hown k v hv)
  committed hover v hv := hgrows _ (h.committed hover v hv)
  selected k v hv := by
    rcases h.selected k v hv with ⟨j, hj⟩ | hwritten
    · exact .inl ⟨j, hgrows _ hj⟩
    · exact .inr hwritten

/-- What a program selected, and what it wrote if it is over, is there. -/
theorem RowStage.Fits.there (h : st.Fits legal w i) (hover : st.phase = .over) {k : K} {v : V}
    (hv : st.selected = some (k, v)) : ∃ j, (j, v) ∈ w.versions k := by
  rcases h.selected k v hv with hthere | ⟨hwritten, hkey⟩
  · exact hthere
  · refine ⟨i, ?_⟩
    rw [← hkey]
    exact h.committed hover v hwritten

/-- A program that wrote nothing sees what is committed. -/
theorem RowStage.Fits.unwritten (h : st.Fits legal w i) {s : RowSession K V}
    (hs : w.sessions i = some s) (hnone : st.written = none) (k : K) : s.written k = none := by
  cases hv : s.written k with
  | none => rfl
  | some v =>
      have hst := ((h.wrote s hs k v).mp hv).1
      rw [hnone] at hst
      cases hst

theorem RowStage.Fits.seen (h : st.Fits legal w i) {s : RowSession K V}
    (hs : w.sessions i = some s) (hnone : st.written = none) (k : K) : w.seen s k = w.row k := by
  unfold RowTable.seen
  rw [h.unwritten hs hnone, Option.none_or]

namespace RowsSound

theorem start : RowsSound legal fine (RowTable.empty : RowTable ι K V) fun _ => .first where
  chained _ := .nil
  keyed _ _ h := nomatch h
  fine _ _ h := nomatch h
  once _ := List.nodup_nil
  exclusive _ _ _ _ _ h := nomatch h
  fits i := by
    refine ⟨trivial, fun s hs => (nomatch hs), fun s hs => (nomatch hs),
      fun s hs => (nomatch hs), fun s hs => (nomatch hs), fun k v hv => (nomatch hv),
      fun hover => (nomatch hover), fun k v hv => (nomatch hv)⟩

/-- A row that a program holds is free for it. -/
theorem free (h : RowsSound legal fine w stage) {s : RowSession K V} (hs : w.sessions i = some s)
    {k : K} (hk : k ∈ s.locked) : w.Free i k :=
  fun j hj t ht hkt => hj (h.exclusive j i t s k ht hs hkt hk)

variable [DecidableEq ι]

/-- A program goes on, and the table stays. -/
theorem restage (h : RowsSound legal fine w stage) (hst : st.Fits legal w i) :
    RowsSound legal fine w (Function.update stage i st) where
  chained := h.chained
  keyed := h.keyed
  fine := h.fine
  once := h.once
  exclusive := h.exclusive
  fits j := by
    by_cases hj : j = i
    · cases hj
      rwa [Function.update_self]
    · rw [Function.update_of_ne hj]
      exact h.fits j

/-- A program goes on with another transaction, which holds rows that were free. -/
theorem enter (h : RowsSound legal fine w stage) {s' : Option (RowSession K V)}
    (hlocks : ∀ s ∈ s', ∀ k ∈ s.locked, w.Free i k) (hst : st.Fits legal (w.enter i s') i) :
    RowsSound legal fine (w.enter i s') (Function.update stage i st) where
  chained := h.chained
  keyed := h.keyed
  fine := h.fine
  once := h.once
  exclusive := by
    intro j j' s t k hs ht hks hkt
    change Function.update w.sessions i s' j = some s at hs
    change Function.update w.sessions i s' j' = some t at ht
    by_cases hj : j = i
    · by_cases hj' : j' = i
      · exact hj.trans hj'.symm
      · rw [hj, Function.update_self] at hs
        rw [Function.update_of_ne hj'] at ht
        exact absurd hkt (hlocks s hs k hks j' hj' t ht)
    · rw [Function.update_of_ne hj] at hs
      by_cases hj' : j' = i
      · rw [hj', Function.update_self] at ht
        exact absurd hks (hlocks t ht k hkt j hj s hs)
      · rw [Function.update_of_ne hj'] at ht
        exact h.exclusive j j' s t k hs ht hks hkt
  fits j := by
    by_cases hj : j = i
    · cases hj
      rwa [Function.update_self]
    · rw [Function.update_of_ne hj]
      refine (h.fits j).frame (fun s hs => ?_) (fun k => List.Subset.refl _) (fun _ _ => id)
        fun _ _ _ _ => rfl
      change s ∈ Function.update w.sessions i s' j at hs
      rwa [Function.update_of_ne hj] at hs

/-- A transaction ends without a trace. -/
theorem leave (h : RowsSound legal fine w stage) (i : ι) : RowsSound legal fine (w.enter i none) stage := by
  have hst : (stage i).Fits legal (w.enter i none) i := by
    refine (h.fits i).frame (fun s hs => ?_) (fun k => List.Subset.refl _) (fun _ _ => id)
      fun _ _ _ _ => rfl
    change s ∈ Function.update w.sessions i none i at hs
    rw [Function.update_self] at hs
    cases hs
  have henter : RowsSound legal fine (w.enter i none) (Function.update stage i (stage i)) :=
    h.enter (fun s hs => (nomatch hs)) hst
  rwa [Function.update_eq_self] at henter

/-- A transaction is committed: what it wrote is a legal change, and what others hold stays. -/
theorem commit (h : RowsSound legal fine w stage) {s : RowSession K V} (hs : w.sessions i = some s)
    (hfine : ∀ v ∈ (stage i).written, KeepsFine (legal i) fine v)
    {phase : RowPhase} (hphase : phase = .over ∨ phase = .unsure) :
    RowsSound legal fine (w.commit i s) (Function.update stage i { stage i with phase := phase }) := by
  have hfits := h.fits i
  have hwritten : ∀ k v, s.written k = some v →
      (stage i).written = some v ∧ KeyedRow.key v = k ∧ k ∈ s.locked ∧ legal i (w.row k) v := by
    intro k v hv
    obtain ⟨hst, hkey⟩ := (hfits.wrote s hs k v).mp hv
    obtain ⟨hlocked, hlegal⟩ := hfits.change s hs v hst
    rw [hkey] at hlocked hlegal
    exact ⟨hst, hkey, hlocked, hlegal⟩
  have hnew : ∀ k v, (i, v) ∉ w.versions k := by
    intro k v hv
    have hwithin := hfits.within s hs
    rcases (hfits.ended k v hv).1 with hover | hunsure
    · rw [hwithin] at hover
      cases hover
    · rw [hwithin] at hunsure
      cases hunsure
  have hmem : ∀ k e, e ∈ (w.commit i s).versions k ↔
      e ∈ w.versions k ∨ ∃ v, s.written k = some v ∧ e = (i, v) := by
    intro k e
    show e ∈ w.versions k ++ _ ↔ _
    cases hv : s.written k with
    | none => simp
    | some v => simp
  refine ⟨fun k => ?_, fun k e he => ?_, fun k e he => ?_, fun k => ?_, ?_, fun j => ?_⟩
  · show Chained legal (w.versions k ++ _)
    cases hv : s.written k with
    | none => simpa using h.chained k
    | some v => exact .snoc i v (h.chained k) (hwritten k v hv).2.2.2
  · rcases (hmem k e).mp he with he | ⟨v, hv, rfl⟩
    · exact h.keyed k e he
    · exact (hwritten k v hv).2.1
  · rcases (hmem k e).mp he with he | ⟨v, hv, rfl⟩
    · exact h.fine k e he
    · refine hfine v (hwritten k v hv).1 (w.row k) (hwritten k v hv).2.2.2 fun b hb => ?_
      obtain ⟨e, he, rfl⟩ := Option.map_eq_some_iff.mp hb
      exact h.fine k e (List.mem_of_getLast? he)
  · show ((w.versions k ++ _).map Prod.fst).Nodup
    cases hv : s.written k with
    | none => simpa using h.once k
    | some v =>
        have hfirst : i ∉ (w.versions k).map Prod.fst := by
          intro hi
          obtain ⟨⟨j, v'⟩, he, rfl⟩ := List.mem_map.mp hi
          exact hnew k v' he
        rw [List.map_append]
        refine List.nodup_append.mpr ⟨h.once k, List.nodup_singleton _, fun a ha b hb hab => ?_⟩
        rw [hab, List.mem_singleton.mp hb] at ha
        exact hfirst ha
  · intro j j' t t' k ht ht' hkt hkt'
    change Function.update w.sessions i none j = some t at ht
    change Function.update w.sessions i none j' = some t' at ht'
    have hstays : ∀ j t, Function.update w.sessions i none j = some t → w.sessions j = some t := by
      intro j t ht
      by_cases hj : j = i
      · rw [hj, Function.update_self] at ht
        cases ht
      · rwa [Function.update_of_ne hj] at ht
    exact h.exclusive j j' t t' k (hstays j t ht) (hstays j' t' ht') hkt hkt'
  · by_cases hj : j = i
    · cases hj
      rw [Function.update_self]
      have hnone : ∀ t, t ∉ (w.commit i s).sessions i := by
        intro t ht
        change t ∈ Function.update w.sessions i none i at ht
        rw [Function.update_self] at ht
        cases ht
      refine ⟨hfits.known, fun t ht => absurd ht (hnone t), fun t ht => absurd ht (hnone t),
        fun t ht => absurd ht (hnone t), fun t ht => absurd ht (hnone t), fun k v hv => ?_,
        fun _ v hv => ?_, fun k v hv => ?_⟩
      · rcases (hmem k _).mp hv with hv | ⟨v', hv', he⟩
        · exact absurd hv (hnew k v)
        · cases he
          exact ⟨hphase, (hwritten k v hv').1⟩
      · exact (hmem _ _).mpr (.inr ⟨v, (hfits.wrote s hs _ v).mpr ⟨hv, rfl⟩, rfl⟩)
      · rcases hfits.selected k v hv with ⟨j', hj'⟩ | hown
        · exact .inl ⟨j', (hmem _ _).mpr (.inl hj')⟩
        · exact .inr hown
    · rw [Function.update_of_ne hj]
      refine (h.fits j).frame (fun t ht => ?_) (fun k e he => (hmem k e).mpr (.inl he))
        (fun k v hv => ?_) fun t ht k hk => ?_
      · change t ∈ Function.update w.sessions i none j at ht
        rwa [Function.update_of_ne hj] at ht
      · rcases (hmem k _).mp hv with hv | ⟨v', -, he⟩
        · exact hv
        · exact absurd (Prod.mk.inj he).1 hj
      · show latestOf (w.versions k ++ _) = latestOf (w.versions k)
        cases hv : s.written k with
        | none => simp
        | some v =>
            exact absurd (h.exclusive j i t s k ht hs hk (hwritten k v hv).2.2.1) hj

/-- A program goes on as it was. -/
theorem stays (h : RowsSound legal fine w stage) (hst : st = stage i) :
    RowsSound legal fine w (Function.update stage i st) := by
  rw [hst, Function.update_eq_self]
  exact h

/-- A transaction ends, and nothing of it was committed. -/
theorem abandon (h : RowsSound legal fine w stage) (hphase : (stage i).phase = .within)
    {st : RowStage K V} (hknown : st.known) (hover : st.phase = .over → st.written = none)
    (hselected : ∀ k v, st.selected = some (k, v) → (stage i).selected = some (k, v) ∧
      st.written = (stage i).written) :
    RowsSound legal fine (w.enter i none) (Function.update stage i st) := by
  have hfits := h.fits i
  have hnone : ∀ t, t ∉ (w.enter i none).sessions i := by
    intro t ht
    change t ∈ Function.update w.sessions i none i at ht
    rw [Function.update_self] at ht
    cases ht
  refine h.enter (fun t ht => (nomatch ht)) ⟨hknown, fun t ht => absurd ht (hnone t),
    fun t ht => absurd ht (hnone t), fun t ht => absurd ht (hnone t),
    fun t ht => absurd ht (hnone t), fun k v hv => ?_, fun hst v hv => ?_, fun k v hv => ?_⟩
  · rcases (hfits.ended k v hv).1 with hover | hunsure
    · rw [hphase] at hover
      cases hover
    · rw [hphase] at hunsure
      cases hunsure
  · rw [hover hst] at hv
    cases hv
  · obtain ⟨hsame, hwritten⟩ := hselected k v hv
    rw [hwritten]
    exact hfits.selected k v hsame

variable [DecidableEq K]

/-- What holds of a program's row once it has written one. -/
theorem write (h : RowsSound legal fine w stage) {s : RowSession K V} (hs : w.sessions i = some s)
    {v : V} (hnone : (stage i).written = none) (hfree : w.Free i (KeyedRow.key v))
    (hlegal : legal i (w.row (KeyedRow.key v)) v) {known : Prop} (hknown : known) :
    RowsSound legal fine (w.enter i (some (s.write v)))
      (Function.update stage i { stage i with written := some v, known := known }) := by
  have hfits := h.fits i
  have hunwritten := hfits.unwritten hs hnone
  have hsession : ∀ t ∈ (w.enter i (some (s.write v))).sessions i, t = s.write v := by
    intro t ht
    change t ∈ Function.update w.sessions i (some (s.write v)) i at ht
    rw [Function.update_self] at ht
    exact (Option.some.inj ht).symm
  refine h.enter (fun t ht k hk => ?_) ⟨hknown, fun t ht => ?_, fun t ht k v' => ?_,
    fun t ht v' hv' => ?_, fun t ht v' hv' => ?_, fun k v' hv' => ?_, fun hover v' hv' => ?_,
    fun k v' hv' => ?_⟩
  · cases ht
    rcases List.mem_cons.mp hk with rfl | hk
    · exact hfree
    · exact h.free hs hk
  · exact hfits.within s hs
  · rw [hsession t ht]
    show Function.update s.written (KeyedRow.key v) (some v) k = some v' ↔ some v = some v' ∧ _
    by_cases hk : k = KeyedRow.key v
    · rw [hk, Function.update_self]
      constructor
      · intro hsame
        exact ⟨hsame, by rw [Option.some.inj hsame]⟩
      · intro hsame
        exact hsame.1
    · rw [Function.update_of_ne hk, hunwritten]
      constructor
      · intro hfalse
        cases hfalse
      · intro ⟨hsame, hkey⟩
        rw [Option.some.inj hsame] at hk
        exact absurd hkey.symm hk
  · rw [hsession t ht]
    cases hv'
    exact ⟨List.mem_cons_self, hlegal⟩
  · obtain ⟨hlocked, hrow⟩ := hfits.held s hs v' hv'
    rw [hsession t ht]
    exact ⟨List.mem_cons_of_mem _ hlocked, hrow⟩
  · have hst := (hfits.ended k v' hv').2
    rw [hnone] at hst
    cases hst
  · have hwithin := hfits.within s hs
    rw [show (stage i).phase = .over from hover] at hwithin
    cases hwithin
  · rcases hfits.selected k v' hv' with hthere | ⟨hst, -⟩
    · exact .inl hthere
    · rw [hnone] at hst
      cases hst

/-- One statement that is allowed. -/
theorem step (h : RowsSound legal fine w stage) {r : RowAsk Q K V} {a : r.Answer ε}
    (hallows : (rowProtocol (ε := ε) (legal i) fine).allows (stage i) r)
    (ha : RowTable.Answers w i r a w') :
    RowsSound legal fine w' (Function.update stage i ((rowProtocol (legal i) fine).next (stage i) r a)) := by
  have hfits := h.fits i
  have hallows := hallows hfits.known
  cases ha with
  | begin =>
      have hfirst : stage i = .first := hallows
      refine h.enter (fun s hs k hk => ?_) ⟨hfits.known, fun s hs => rfl, fun s hs k v => ?_,
        fun s hs v hv => ?_, fun s hs v hv => ?_, fun k v hv => ?_, fun hover => (nomatch hover),
        fun k v hv => ?_⟩
      · cases hs
        cases hk
      · change s ∈ Function.update w.sessions i _ i at hs
        rw [Function.update_self] at hs
        cases hs
        rw [hfirst]
        exact ⟨fun h => (nomatch h), fun h => (nomatch h.1)⟩
      · rw [hfirst] at hv
        cases hv
      · rw [hfirst] at hv
        cases hv
      · have hphase := (hfits.ended k v hv).1
        rw [hfirst] at hphase
        rcases hphase with hphase | hphase <;> cases hphase
      · rw [hfirst] at hv
        cases hv
  | look question answer => exact h.stays rfl
  | select k s hs =>
      refine h.restage ⟨hfits.known, hfits.within, hfits.wrote, hfits.change, hfits.held,
        hfits.ended, hfits.committed, fun k' v hv => ?_⟩
      obtain ⟨v', hv', he⟩ := Option.map_eq_some_iff.mp hv
      cases he
      rcases Option.or_eq_some_iff.mp hv' with hwritten | ⟨-, hrow⟩
      · exact .inr ((hfits.wrote s hs k v).mp hwritten)
      · obtain ⟨e, he, rfl⟩ := Option.map_eq_some_iff.mp hrow
        exact .inl ⟨e.1, List.mem_of_getLast? he⟩
  | lockWhere p order found s hs hfound horder =>
      obtain ⟨-, hnone⟩ := hallows
      have hsession : ∀ t ∈ (w.enter i
          (some ⟨found.map KeyedRow.key ++ s.locked, s.written⟩)).sessions i,
          t = ⟨found.map KeyedRow.key ++ s.locked, s.written⟩ := by
        intro t ht
        change t ∈ Function.update w.sessions i _ i at ht
        rw [Function.update_self] at ht
        exact (Option.some.inj ht).symm
      refine h.enter (fun t ht k hk => ?_) ⟨⟨hfits.known, fun v hv => (hfound v hv).2.1⟩,
        fun t ht => hfits.within s hs, fun t ht => ?_, fun t ht v hv => ?_, fun t ht v hv => ?_,
        hfits.ended, hfits.committed, hfits.selected⟩
      · cases ht
        rcases List.mem_append.mp hk with hk | hk
        · obtain ⟨v, hv, rfl⟩ := List.mem_map.mp hk
          exact (hfound v hv).2.2
        · exact h.free hs hk
      · rw [hsession t ht]
        exact hfits.wrote s hs
      · rw [show (stage i).written = some v from hv] at hnone
        cases hnone
      · have hmem : v ∈ found := List.mem_of_head? hv
        have hseen := (hfound v hmem).1
        rw [hfits.seen hs hnone] at hseen
        rw [hsession t ht]
        exact ⟨List.mem_append_left _ (List.mem_map_of_mem hmem), hseen⟩
  | insert v s hs hnew hfree =>
      obtain ⟨hnone, hlegal⟩ := hallows
      rw [hfits.seen hs hnone] at hnew
      refine h.write hs hnone hfree ?_ hfits.known
      rw [hnew]
      exact hlegal
  | conflict v old s hs hold =>
      refine h.stays ?_
      show { stage i with written := none } = stage i
      rw [← hallows.1]
  | update k p f v s hs hv hp hfree =>
      obtain ⟨hnone, hchange⟩ := hallows
      rw [hfits.seen hs hnone] at hv
      have hkey : KeyedRow.key v = k := by
        obtain ⟨e, he, rfl⟩ := Option.map_eq_some_iff.mp hv
        exact h.keyed k e (List.mem_of_getLast? he)
      have hcurrent : (stage i).Current v := by
        intro held hheld hsame
        obtain ⟨-, hrow⟩ := hfits.held s hs held hheld
        rw [hsame, hkey, hv] at hrow
        exact (Option.some.inj hrow).symm
      obtain ⟨hkey', hlegal⟩ := hchange v hcurrent hkey hp
      refine h.write hs hnone ?_ ?_ ⟨hfits.known, fun held hheld hsame _ => ?_⟩
      · rw [hkey']
        exact hfree
      · rw [hkey', hv]
        exact hlegal
      · rw [hcurrent held hheld (hsame.trans hkey.symm)]
  | missed k p f s hs hmissed =>
      refine h.restage ⟨⟨hfits.known, fun held hheld hsame hp => ?_⟩, hfits.within, ?_, ?_,
        hfits.held, ?_, ?_, ?_⟩
      · -- a row that is held is there, and would have matched
        have hrow := (hfits.held s hs held hheld).2
        rw [hsame, ← hfits.seen hs hallows.1] at hrow
        rw [hmissed held hrow] at hp
        cases hp
      · rw [← hallows.1]
        exact hfits.wrote
      · rw [← hallows.1]
        exact hfits.change
      · rw [← hallows.1]
        exact hfits.ended
      · rw [← hallows.1]
        exact hfits.committed
      · rw [← hallows.1]
        exact hfits.selected
  | commit s answer hs =>
      cases answer with
      | ok _ => exact h.commit hs hallows.2 (.inl rfl)
      | error e => exact h.commit hs hallows.2 (.inr rfl)
  | commitFails e =>
      exact h.abandon hallows.1 hfits.known (fun hover => (nomatch hover)) fun k v hv => ⟨hv, rfl⟩
  | rollback answer =>
      exact h.abandon hallows hfits.known (fun _ => rfl) fun k v hv => (nomatch hv)
  | fails _ e hr =>
      refine h.stays ?_
      cases r with
      | commit => exact absurd rfl hr.1
      | rollback => exact absurd rfl hr.2
      | _ => rfl

end RowsSound

/-- What a program selected last is what it was answered with. -/
def Selected (run : List (Deed ι (RowAsk Q K V) (RowAsk.Answer ε))) (stage : ι → RowStage K V) :
    Prop :=
  ∀ i k v, (stage i).selected = some (k, v) → .asked i (.select k) (.ok (some v)) ∈ run

omit [KeyedRow V K] in
theorem Selected.keep {run : List (Deed ι (RowAsk Q K V) (RowAsk.Answer ε))}
    (h : Selected run stage) (deed : Deed ι (RowAsk Q K V) (RowAsk.Answer ε)) :
    Selected (run ++ [deed]) stage :=
  fun i k v hv => List.mem_append_left _ (h i k v hv)

theorem Selected.step [DecidableEq ι] {run : List (Deed ι (RowAsk Q K V) (RowAsk.Answer ε))}
    (h : Selected run stage) (r : RowAsk Q K V) (a : r.Answer ε) :
    Selected (run ++ [.asked i r a])
      (Function.update stage i ((rowProtocol (legal i) fine).next (stage i) r a)) := by
  intro j k v hv
  by_cases hj : j = i
  · cases hj
    rw [Function.update_self] at hv
    have hkept : (stage i).selected = some (k, v) →
        .asked i (.select k) (.ok (some v)) ∈ run ++ [.asked i r a] := h.keep _ i k v
    cases r with
    | select k' =>
        cases a with
        | error e => exact hkept hv
        | ok found =>
            obtain ⟨v', hfound, he⟩ := Option.map_eq_some_iff.mp hv
            cases he
            rw [hfound]
            exact List.mem_append_right _ (List.mem_singleton_self _)
    | rollback => cases hv
    | _ => cases a <;> exact hkept hv
  · rw [Function.update_of_ne hj] at hv
    exact h.keep _ j k v hv

namespace RowsSound

/-- A program that wrote nothing left no version. -/
theorem wrote_nothing (h : RowsSound legal fine w stage) (hnone : (stage i).written = none) (k : K)
    (v : V) : (i, v) ∉ w.versions k := by
  intro hmem
  have hwritten := ((h.fits i).ended k v hmem).2
  rw [hnone] at hwritten
  cases hwritten

/-- A version is a legal change of the version before it. -/
theorem version_change (h : RowsSound legal fine w stage) {k : K} {v : V}
    (hmem : (i, v) ∈ w.versions k) :
    KeyedRow.key v = k ∧ ∃ pre post, w.versions k = pre ++ (i, v) :: post ∧
      legal i (latestOf pre) v := by
  obtain ⟨pre, post, hsplit⟩ := List.append_of_mem hmem
  have hchained := h.chained k
  rw [hsplit] at hchained
  exact ⟨h.keyed k _ hmem, pre, post, hsplit, hchained.change⟩

end RowsSound

/-- What holds along every run of programs that each make one legal change: the table is sound,
what a program selected it was answered with, and each program has come to the stage where its
condition on the end holds, if it has ended. -/
theorem rows_sound [DecidableEq ι] [DecidableEq K]
    {programs : ι → Prog (RowAsk Q K V) (RowAsk.Answer ε) ε α}
    {ends : ι → Except ε α → RowStage K V → Prop}
    (hprograms : ∀ i, (rowProtocol (legal i) fine).Follows .first (programs i) (ends i))
    {run : List (Deed ι (RowAsk Q K V) (RowAsk.Answer ε))}
    {s : RowTable ι K V × (ι → Prog (RowAsk Q K V) (RowAsk.Answer ε) ε α)}
    (h : ((rowSurroundings ι Q K V ε).crew programs).Trace run s) :
    Surroundings.OrderlyTo (fun i => rowProtocol (legal i) fine) ends
      (fun run w stage => RowsSound legal fine w stage ∧ Selected run stage) run s := by
  refine Surroundings.crew_invariant_to .first hprograms ?_ ?_ ?_ h
  · intro w hw
    rw [show w = RowTable.empty from hw]
    exact ⟨.start, fun i k v hv => (nomatch hv)⟩
  · intro run w stage i r a w' ⟨hsound, hselected⟩ hallows ha
    exact ⟨hsound.step hallows ha, hselected.step r a⟩
  · intro run w stage w' ⟨hsound, hselected⟩ hc
    cases hc with
    | lost i => exact ⟨hsound.leave i, hselected.keep _⟩

/-- A row that was selected is what is there, or what the program wrote. -/
theorem selected_seen [DecidableEq ι] [DecidableEq K]
    {programs : ι → Prog (RowAsk Q K V) (RowAsk.Answer ε) ε α}
    {run : List (Deed ι (RowAsk Q K V) (RowAsk.Answer ε))}
    {s : RowTable ι K V × (ι → Prog (RowAsk Q K V) (RowAsk.Answer ε) ε α)}
    (h : ((rowSurroundings ι Q K V ε).crew programs).Trace run s) {k : K} {v : V}
    (hmem : .asked i (.select k) (.ok (some v)) ∈ run) :
    ∃ earlier s', earlier ++ [.asked i (.select k) (.ok (some v))] <+: run ∧
      ((rowSurroundings ι Q K V ε).crew programs).Trace earlier s' ∧
      ∃ session ∈ s'.1.sessions i, s'.1.seen session k = some v := by
  obtain ⟨earlier, rest, hsplit⟩ := List.append_of_mem hmem
  have hprefix : earlier ++ [.asked i (.select k) (.ok (some v))] <+: run :=
    ⟨rest, by rw [hsplit, List.append_assoc]; rfl⟩
  obtain ⟨s', s'', hearlier, hstep, -⟩ := h.takes hprefix
  refine ⟨earlier, s', hprefix, hearlier, ?_⟩
  generalize hanswer : (Except.ok (some v) : (RowAsk.select k : RowAsk Q K V).Answer ε) = answer
    at hstep
  cases hstep with
  | asked w w' tasks i r a next hi ha =>
      cases ha with
      | select k session hs => exact ⟨session, hs, (Except.ok.inj hanswer).symm⟩
      | fails e _ _ => cases hanswer

/-- A program that only writes rows which are not there selects what is there, if it is. -/
theorem selected_there [DecidableEq ι] [DecidableEq K]
    {programs : ι → Prog (RowAsk Q K V) (RowAsk.Answer ε) ε α}
    {ends : ι → Except ε α → RowStage K V → Prop}
    (hprograms : ∀ i, (rowProtocol (legal i) fine).Follows .first (programs i) (ends i))
    {run : List (Deed ι (RowAsk Q K V) (RowAsk.Answer ε))}
    {s : RowTable ι K V × (ι → Prog (RowAsk Q K V) (RowAsk.Answer ε) ε α)}
    (h : ((rowSurroundings ι Q K V ε).crew programs).Trace run s)
    (hnew : ∀ before v, legal i before v → before = none) {k : K} {v : V}
    (hselected : Selected run stage) (hv : (stage i).selected = some (k, v)) :
    ∃ earlier s', earlier ++ [.asked i (.select k) (.ok (some v))] <+: run ∧
      ((rowSurroundings ι Q K V ε).crew programs).Trace earlier s' ∧
      ∀ there ∈ s'.1.row k, there = v := by
  obtain ⟨earlier, s', hprefix, hearlier, session, hsession, hseen⟩ :=
    selected_seen h (hselected i k v hv)
  refine ⟨earlier, s', hprefix, hearlier, fun there hthere => ?_⟩
  obtain ⟨stage', ⟨hsound, -⟩, -⟩ := rows_sound hprograms hearlier
  rcases Option.or_eq_some_iff.mp hseen with hwritten | ⟨-, hrow⟩
  · -- it wrote the row itself, so that there was none
    obtain ⟨hwritten', hkey⟩ := ((hsound.fits i).wrote session hsession k v).mp hwritten
    obtain ⟨-, hlegal⟩ := (hsound.fits i).change session hsession v hwritten'
    rw [hkey] at hlegal
    rw [hnew _ _ hlegal] at hthere
    cases hthere
  · rw [hrow] at hthere
    exact (Option.some.inj hthere).symm

/-- The versions of a row only grow. -/
theorem versions_grow [DecidableEq ι] [DecidableEq K]
    {programs : ι → Prog (RowAsk Q K V) (RowAsk.Answer ε) ε α}
    {run later : List (Deed ι (RowAsk Q K V) (RowAsk.Answer ε))}
    {s s' : RowTable ι K V × (ι → Prog (RowAsk Q K V) (RowAsk.Answer ε) ε α)}
    (h : ((rowSurroundings ι Q K V ε).crew programs).Trace run s)
    (hg : ((rowSurroundings ι Q K V ε).crew programs).Goes s later s') (k : K) :
    s.1.versions k <+: s'.1.versions k := by
  refine h.keeps (fun s s' => s.1.versions k <+: s'.1.versions k) (fun _ => List.prefix_rfl)
    (fun _ _ _ => List.IsPrefix.trans) (fun run s deed s' _ hs => ?_) hg
  cases hs with
  | asked w w' tasks i r a next hi ha =>
      cases ha with
      | commit t answer ht => exact List.prefix_append _ _
      | _ => exact List.prefix_rfl
  | changed w w' tasks hc =>
      cases hc with
      | lost i => exact List.prefix_rfl

end OneChange

/-! ## 5. Statements that are served at once -/

section Serving

instance [Fintype ι] [DecidableEq ι] [DecidableEq K] (w : RowTable ι K V) (i : ι) (k : K) :
    Decidable (w.Free i k) :=
  inferInstanceAs (Decidable (∀ j, j ≠ i → ∀ s ∈ w.sessions j, k ∉ s.locked))

variable [DecidableEq ι] [DecidableEq K] [DecidableEq V] [KeyedRow V K]
  [∀ (w : RowTable ι K V) (i : ι) (k : K), Decidable (w.Free i k)]

/-- What a statement does in an open transaction, and that it fails without one. -/
def RowTable.within {β : Type} (w : RowTable ι K V) (i : ι) (e : ε)
    (f : RowSession K V → Except ε β × RowTable ι K V) : Except ε β × RowTable ι K V :=
  match w.sessions i with
  | none => (.error e, w)
  | some s => f s

/-- An answer to a statement, where the rows are under some keys and questions have an answer; a
statement that would have to wait fails. -/
def RowTable.answer (keys : List K) (looks : Q → Bool) (e : ε) (w : RowTable ι K V) (i : ι) :
    (r : RowAsk Q K V) → r.Answer ε × RowTable ι K V
  | .begin => (.ok (), w.enter i (some ⟨[], fun _ => none⟩))
  | .look question => (.ok (looks question), w)
  | .select k => w.within i e fun s => (.ok (w.seen s k), w)
  | .lockWhere p order => w.within i e fun s =>
      let found := ((keys.filterMap (w.seen s)).filter fun v =>
        p v ∧ w.seen s (KeyedRow.key v) = some v ∧ w.Free i (KeyedRow.key v)).insertionSort
          fun v v' => order v ≤ order v'
      (.ok found, w.enter i (some { s with locked := found.map KeyedRow.key ++ s.locked }))
  | .insert v => w.within i e fun s =>
      match w.seen s (KeyedRow.key v) with
      | some _ => (.ok none, w)
      | none =>
          if w.Free i (KeyedRow.key v) then (.ok (some v), w.enter i (some (s.write v)))
          else (.error e, w)
  | .update k p f => w.within i e fun s =>
      match w.seen s k with
      | none => (.ok none, w)
      | some v =>
          if p v = false then (.ok none, w)
          else if w.Free i k then (.ok (some (f v)), w.enter i (some (s.write (f v))))
          else (.error e, w)
  | .commit =>
      match w.sessions i with
      | none => (.error e, w.enter i none)
      | some s => (.ok (), w.commit i s)
  | .rollback => (.ok (), w.enter i none)

/-- It is an answer that the program may get. -/
theorem RowTable.answer_answers (keys : List K) (looks : Q → Bool) (e : ε) (w : RowTable ι K V)
    (i : ι) (r : RowAsk Q K V) :
    RowTable.Answers w i r (w.answer keys looks e i r).1 (w.answer keys looks e i r).2 := by
  cases r with
  | begin => exact .begin w i
  | look question => exact .look w i question _
  | select k =>
      show Answers w i _ (w.within i e _).1 (w.within i e _).2
      unfold RowTable.within
      cases hs : w.sessions i with
      | none => exact .fails w i _ e ⟨nofun, nofun⟩
      | some s => exact .select w i k s hs
  | lockWhere p order =>
      show Answers w i _ (w.within i e _).1 (w.within i e _).2
      unfold RowTable.within
      cases hs : w.sessions i with
      | none => exact .fails w i _ e ⟨nofun, nofun⟩
      | some s =>
          refine .lockWhere w i p order _ s hs (fun v hv => ?_) ?_
          · have hmem := (List.mem_filter.mp ((List.mem_insertionSort _).mp hv)).2
            obtain ⟨hp, hseen, hfree⟩ := of_decide_eq_true hmem
            exact ⟨hseen, hp, hfree⟩
          · exact List.pairwise_insertionSort _ _
  | insert v =>
      show Answers w i _ (w.within i e _).1 (w.within i e _).2
      unfold RowTable.within
      cases hs : w.sessions i with
      | none => exact .fails w i _ e ⟨nofun, nofun⟩
      | some s =>
          dsimp only
          cases hv : w.seen s (KeyedRow.key v) with
          | some old => exact .conflict w i v old s hs hv
          | none =>
              dsimp only
              split
              next hfree => exact .insert w i v s hs hv hfree
              next => exact .fails w i _ e ⟨nofun, nofun⟩
  | update k p f =>
      show Answers w i _ (w.within i e _).1 (w.within i e _).2
      unfold RowTable.within
      cases hs : w.sessions i with
      | none => exact .fails w i _ e ⟨nofun, nofun⟩
      | some s =>
          dsimp only
          cases hv : w.seen s k with
          | none => exact .missed w i k p f s hs fun v h => by rw [hv] at h; cases h
          | some v =>
              dsimp only
              split
              next hp =>
                refine .missed w i k p f s hs fun v' h => ?_
                rw [hv] at h
                cases h
                exact hp
              next hp =>
                split
                next hfree => exact .update w i k p f v s hs hv (by simpa using hp) hfree
                next => exact .fails w i _ e ⟨nofun, nofun⟩
  | commit =>
      unfold RowTable.answer
      cases hs : w.sessions i with
      | none => exact .commitFails w i e
      | some s => exact .commit w i s _ hs
  | rollback => exact .rollback w i _

end Serving

end NokincFactory
