/-
  File:      NokincFactory/Workflow/BoxRules.lean
  Subject:   How the methods on the outbox and the inbox are reasoned about.

  * `Returns`: what holds of what a method returned, and of what it wrote and selected;
  * `follows_transaction`: it is shown for the body of its transaction;
  * `follows_reread`: the record that a method reads back;
  * `run_transaction`, `run_transaction_served`: a transaction alone, and one that writes nothing.
-/
import NokincFactory.Adapters.PostgresWorkflowBoxes

namespace NokincFactory

namespace WorkflowBoxes

/-! ## 1. Methods among others -/

section Among

variable {V α : Type} [KeyedRow V BoxKey] {legal : Option V → V → Prop} {fine : V → Prop}
  {st : RowStage BoxKey V}

/-- A method that returned is over, and what it returned fits what it wrote and selected. -/
def Returns (R : α → Option V → Option (BoxKey × V) → Prop) (r : Except Failure α)
    (st : RowStage BoxKey V) : Prop :=
  ∀ value, r = .ok value → st.known → st.phase = .over ∧ R value st.written st.selected

/-- What is shown of the body of a transaction. -/
def Ends (legal : Option V → V → Prop) (fine : V → Prop)
    (R : α → Option V → Option (BoxKey × V) → Prop) (r : Except Failure α)
    (st : RowStage BoxKey V) : Prop :=
  st.phase = .within ∧ ∀ value, r = .ok value → st.known →
    (∀ v ∈ st.written, KeepsFine legal fine v) ∧ R value st.written st.selected

/-- The stage of an open transaction. -/
def opened : RowStage BoxKey V := ⟨.within, none, none, none, True⟩

variable {R : α → Option V → Option (BoxKey × V) → Prop}

omit [KeyedRow V BoxKey] in
/-- A body that raises. -/
theorem Ends.raised {e : Failure} (h : st.phase = .within) :
    Ends legal fine R (.error e) st :=
  ⟨h, fun _ hr => (nomatch hr)⟩

theorem follows_execute {r : RowAsk BoxLook BoxKey V}
    {Q : Except Failure r.Value → RowStage BoxKey V → Prop} :
    (rowProtocol legal fine).Follows st (execute r) Q ↔
      (rowProtocol (ε := Failure) legal fine).allows st r ∧
        ∀ a, Q a ((rowProtocol legal fine).next st r a) :=
  and_congr_right fun _ => forall_congr' fun _ => Protocol.follows_ofExcept

/-- How a transaction ends, once its body has. -/
theorem follows_end (r : Except Failure α) : Ends legal fine R r st →
    (rowProtocol legal fine).Follows st (match r with
      | .ok value => do
          execute .commit
          pure value
      | .error failure => do
          let _ ← (execute .rollback).attempt
          .raise failure : BoxProg V α) (Returns R) := by
  intro ⟨hphase, hr⟩
  cases r with
  | ok value =>
      refine Protocol.follows_bind.mpr (follows_execute.mpr
        ⟨fun hknown => ⟨hphase, (hr value rfl hknown).1⟩, fun a => ?_⟩)
      cases a with
      | error e => exact fun value hr => (nomatch hr)
      | ok _ =>
          intro value' hvalue hknown
          cases hvalue
          exact ⟨rfl, (hr value rfl hknown).2⟩
  | error failure =>
      refine Protocol.follows_bind.mpr (Protocol.follows_attempt.mpr
        (follows_execute.mpr ⟨fun _ => hphase, fun a => ?_⟩))
      exact fun value hr => (nomatch hr)

theorem follows_transaction {tenantId : String} {body : BoxProg V α}
    (h : (rowProtocol legal fine).Follows opened body (Ends legal fine R)) :
    (rowProtocol legal fine).Follows .first (transaction tenantId body) (Returns R) := by
  unfold transaction
  refine Protocol.follows_bind.mpr (follows_execute.mpr ⟨fun _ => rfl, fun a => ?_⟩)
  cases a with
  | error e => exact fun value hr => (nomatch hr)
  | ok _ =>
      refine Protocol.follows_bind.mpr (Protocol.follows_attempt.mpr ?_)
      refine Protocol.follows_bind.mpr (follows_execute.mpr ⟨fun _ => trivial, fun a => ?_⟩)
      cases a with
      | error e => exact follows_end (.error _) (.raised rfl)
      | ok bypasses =>
          refine Protocol.follows_bind.mpr (Protocol.follows_insist.mpr ⟨fun _ => ?_, fun _ => ?_⟩)
          · refine Protocol.follows_bind.mpr
              (follows_execute.mpr ⟨fun _ => trivial, fun a => ?_⟩)
            cases a with
            | error e => exact follows_end (.error _) (.raised rfl)
            | ok _ => exact h.weaken fun r st hst => follows_end r hst
          · exact follows_end (.error _) (.raised rfl)

theorem follows_reread {β : Type} {k : BoxKey} {read : V → Except Failure β} {same : β → Prop}
    [DecidablePred same] {failure : Failure} (hphase : st.phase = .within)
    (hfine : ∀ v ∈ st.written, KeepsFine legal fine v) :
    (rowProtocol legal fine).Follows st (reread k read same failure)
      (Ends legal fine fun value _ selected =>
        ∃ row, selected = some (k, row) ∧ read row = .ok value ∧ same value) := by
  unfold reread
  refine Protocol.follows_bind.mpr (follows_execute.mpr ⟨fun _ => trivial, fun a => ?_⟩)
  cases a with
  | error e => exact .raised hphase
  | ok found =>
      cases found with
      | none => exact .raised hphase
      | some row =>
          refine Protocol.follows_bind.mpr (Protocol.follows_ofExcept.mpr ?_)
          cases hread : read row with
          | error e => exact .raised hphase
          | ok existing =>
              refine Protocol.follows_bind.mpr (Protocol.follows_insist.mpr
                ⟨fun hsame => ⟨hphase, fun value hr _ => ?_⟩, fun _ => .raised hphase⟩)
              cases hr
              exact ⟨hfine, row, rfl, hread, hsame⟩

end Among

/-! ## 2. Methods alone -/

section Alone

variable {ι V α : Type} [DecidableEq ι] {w w' : RowTable ι BoxKey V} {i : ι}

/-- The table in a transaction that has written nothing. -/
def begun (w : RowTable ι BoxKey V) (i : ι) : RowTable ι BoxKey V :=
  w.enter i (some ⟨[], fun _ => none⟩)

theorem sessions_begun : (begun w i).sessions i = some ⟨[], fun _ => none⟩ := by
  unfold begun RowTable.enter
  simp

variable [DecidableEq V] [KeyedRow V BoxKey]
  [∀ (w : RowTable ι BoxKey V) (i : ι) (k : BoxKey), Decidable (w.Free i k)]
  (keys : List BoxKey) (looks : BoxLook → Bool) (i : ι)

/-- A table that serves one method, which is alone. -/
def serves (w : RowTable ι BoxKey V) (r : RowAsk BoxLook BoxKey V) :
    r.Answer Failure × RowTable ι BoxKey V :=
  w.answer keys looks .other i r

variable {keys looks i}

theorem run_execute_served {r : RowAsk BoxLook BoxKey V} {a : r.Answer Failure}
    (h : serves keys looks i w r = (a, w')) :
    (execute r).run (serves keys looks i) w = (a, w') := by
  show (Prog.ofExcept (serves keys looks i w r).1).run _ (serves keys looks i w r).2 = _
  rw [Prog.run_ofExcept, h]

omit [DecidableEq V] [KeyedRow V BoxKey]
  [∀ (w : RowTable ι BoxKey V) (i : ι) (k : BoxKey), Decidable (w.Free i k)] in
/-- The table after a transaction. -/
def closed (w : RowTable ι BoxKey V) (i : ι) (session : RowSession BoxKey V) :
    Except Failure α → RowTable ι BoxKey V
  | .ok _ => w.commit i session
  | .error _ => w.enter i none

/-- A transaction is its body. -/
theorem run_transaction {tenantId : String} {body : BoxProg V α} {r : Except Failure α}
    {session : RowSession BoxKey V} (hrole : looks .unsafeRole = false)
    (hbody : body.run (serves keys looks i) (begun w i) = (r, w'))
    (hsession : w'.sessions i = some session) :
    (transaction tenantId body).run (serves keys looks i) w = (r, closed w' i session r) := by
  have hrole' : serves keys looks i (begun w i) (.look .unsafeRole) = (.ok false, begun w i) := by
    show ((.ok (looks .unsafeRole) : Except Failure Bool), begun w i) = _
    rw [hrole]
  have hinner : (do
      let bypasses ← execute (.look .unsafeRole)
      .insist (bypasses = false) (.denied "Worker must not bypass row-level security")
      let _ ← execute (.look (.setTenant tenantId))
      body : BoxProg V α).run (serves keys looks i) (begun w i) = (r, w') := by
    rw [Prog.run_bind_ok _ _ (run_execute_served hrole'),
      Prog.run_bind_ok _ _ ((Prog.run_insist _ _ _ _).trans (by rw [if_pos rfl])),
      Prog.run_bind_ok _ _ (run_execute_served rfl), hbody]
  have hbegin : serves keys looks i w .begin = (.ok (), begun w i) := rfl
  unfold transaction
  rw [Prog.run_bind_ok _ _ (run_execute_served hbegin),
    Prog.run_bind_ok _ _ (Prog.run_attempt_of _ _ hinner)]
  cases r with
  | ok value =>
      have hcommit : serves keys looks i w' .commit = (.ok (), w'.commit i session) := by
        unfold serves RowTable.answer
        rw [hsession]
      dsimp only
      rw [Prog.run_bind_ok _ _ (run_execute_served hcommit)]
      rfl
  | error failure =>
      dsimp only
      rw [Prog.run_bind_ok _ _ (Prog.run_attempt_of _ _ (run_execute_served rfl))]
      rfl

/-- A transaction that wrote nothing leaves the table as it is. -/
theorem run_transaction_served {tenantId : String} {body : BoxProg V α} {r : Except Failure α}
    (hrole : looks .unsafeRole = false)
    (hbody : body.run (serves keys looks i) (begun w i) = (r, begun w i)) :
    ∃ w', (transaction tenantId body).run (serves keys looks i) w = (r, w') ∧
      ∀ k, w'.versions k = w.versions k := by
  refine ⟨_, run_transaction hrole hbody sessions_begun, fun k => ?_⟩
  cases r with
  | ok value => exact List.append_nil _
  | error failure => rfl

variable (keys looks) in
/-- A row that an update meets is written, if no one else holds it. -/
theorem run_update_served {k : BoxKey} {p : V → Bool} {f : V → V} {row : V}
    (hrow : w.row k = some row) (hfree : w.Free i k) :
    ∃ w' session, (execute (.update k p f)).run (serves keys looks i) (begun w i) =
        (.ok (if p row then some (f row) else none), w') ∧ w'.sessions i = some session := by
  have hseen : (begun w i).seen ⟨[], fun _ => none⟩ k = some row := hrow
  have hfree' : (begun w i).Free i k := by
    intro j hj s hs
    refine hfree j hj s ?_
    rw [show (begun w i).sessions j = w.sessions j from Function.update_of_ne hj _ _] at hs
    exact hs
  by_cases hp : p row = true
  · refine ⟨(begun w i).enter i (some (RowSession.write ⟨[], fun _ => none⟩ (f row))), _,
      run_execute_served ?_, Function.update_self _ _ _⟩
    unfold serves RowTable.answer RowTable.within
    rw [sessions_begun]
    dsimp only
    rw [hseen]
    dsimp only
    rw [if_neg (by simp [hp]), if_pos hfree', if_pos hp]
  · refine ⟨begun w i, _, run_execute_served ?_, sessions_begun⟩
    unfold serves RowTable.answer RowTable.within
    rw [sessions_begun]
    dsimp only
    rw [hseen]
    dsimp only
    rw [if_pos (by simpa using hp), if_neg hp]

/-- A row that is there is not inserted again. -/
theorem run_insert_served {v row : V} (hrow : w.row (KeyedRow.key v) = some row) :
    (execute (.insert v)).run (serves keys looks i) (begun w i) = (.ok none, begun w i) := by
  refine run_execute_served ?_
  have hseen : (begun w i).seen ⟨[], fun _ => none⟩ (KeyedRow.key v) = some row := hrow
  unfold serves RowTable.answer RowTable.within
  rw [sessions_begun]
  dsimp only
  rw [hseen]

/-- The row that is there is read back. -/
theorem run_reread_served {β : Type} {k : BoxKey} {read : V → Except Failure β} {same : β → Prop}
    [DecidablePred same] {failure : Failure} {row : V} {value : β} (hrow : w.row k = some row)
    (hread : read row = .ok value) :
    (reread k read same failure).run (serves keys looks i) (begun w i) =
      (if same value then .ok value else .error failure, begun w i) := by
  have hselect : serves keys looks i (begun w i) (.select k) = (.ok (some row), begun w i) := by
    have hseen : (begun w i).seen ⟨[], fun _ => none⟩ k = some row := hrow
    unfold serves RowTable.answer RowTable.within
    rw [sessions_begun]
    dsimp only
    rw [hseen]
  unfold reread
  rw [Prog.run_bind_ok _ _ (run_execute_served hselect)]
  dsimp only
  rw [Prog.run_bind_ok _ _ ((Prog.run_ofExcept _ _ _).trans (by rw [hread])), Prog.run_bind,
    Prog.run_insist]
  by_cases hsame : same value
  · rw [if_pos hsame, if_pos hsame]
    rfl
  · rw [if_neg hsame, if_neg hsame]

end Alone

end WorkflowBoxes

end NokincFactory
