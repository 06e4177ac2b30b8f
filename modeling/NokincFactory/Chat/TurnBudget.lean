/-
  File:      NokincFactory/Chat/TurnBudget.lean
  Subject:   The chat turn budget of a tenant, over either store and every interleaving of its
             turns.

  A turn may be gone at any request, and it is not shown that one ever ends.

  * `TurnBudget`: what a finite limit promises;
  * `turnBudget_of_orderly`: it follows from an orderly run, for any store;
  * `chat_turn_budget`: both stores keep it.
-/
import NokincFactory.Chat.InMemory
import NokincFactory.Chat.Postgres

namespace NokincFactory

section Budget

variable {S : Type} {A : S → Type} {ι W E : Type} [DecidableEq ι] [Sha256] [ChatLibraries]

/-- What a finite turn limit promises for a tenant, along every run of chat turns: the number of
its reservations, what stands before a model call, the number of model calls, and that no
reservation is given back. -/
structure TurnBudget (T : Surroundings ι S A W) (store : WorkflowStore A) (turns : ι → ChatTurn)
    (tenantId : Identifier) (limit : ℕ) (reserved : W → List E) (requester : E → Option ι) :
    Prop where
  bounded : ∀ run s, (chatting T store turns).Trace run s → (reserved s.1).length ≤ limit
  preceded : ∀ run s i seat request answer s', (chatting T store turns).Trace run s →
    (turns i).current.tenantId = tenantId →
    (chatting T store turns).step s (.asked i (.complete seat request) answer) s' →
    ∃ e ∈ reserved s.1, requester e = some i
  calls : ∀ run s, (chatting T store turns).Trace run s →
    (modelCalls turns tenantId run).length ≤ 6 * limit
  kept : ∀ run s later s', (chatting T store turns).Trace run s →
    (chatting T store turns).Goes s later s' → reserved s.1 <+: reserved s'.1

variable {T : Surroundings ι S A W} {store : WorkflowStore A} {turns : ι → ChatTurn}
  {tenantId : Identifier} {limit : ℕ} {reserved : W → List E} {requester : E → Option ι}
  {P : ι → Protocol S A TurnStage} {J : W → (ι → TurnStage) → Prop}

theorem turnBudget_of_orderly
    (horderly : ∀ {run s}, (chatting T store turns).Trace run s →
      Surroundings.Orderly (fun i => turnProtocol (P i))
        (fun run w stage => J w stage ∧
          Metered turns tenantId limit ((reserved w).map requester) run stage) run s)
    (hanswers : ∀ w i request answer w', T.answers w i request answer w' →
      reserved w <+: reserved w')
    (hchanges : ∀ w w', T.changes w w' → reserved w <+: reserved w') :
    TurnBudget T store turns tenantId limit reserved requester where
  bounded run s h := by
    obtain ⟨stage, ⟨-, hmetered⟩, -⟩ := horderly h
    have hbound := hmetered.within.1
    rwa [List.length_map] at hbound
  preceded run s i seat request answer s' h hi hs := by
    obtain ⟨stage, ⟨-, hmetered⟩, hleft⟩ := (horderly h).asks hs
    have hmem := hmetered.reserved hi hleft
    obtain ⟨e, he, hrequester⟩ := List.mem_map.mp hmem
    exact ⟨e, he, hrequester⟩
  calls run s h := by
    obtain ⟨stage, ⟨-, hmetered⟩, -⟩ := horderly h
    exact hmetered.within.2
  kept run s later s' h hg := by
    refine h.keeps (fun s s' => reserved s.1 <+: reserved s'.1) (fun _ => List.prefix_rfl)
      (fun _ _ _ => List.IsPrefix.trans) (fun run s deed s' _ hs => ?_) hg
    cases hs with
    | asked w w' programs i request answer next hi ha =>
        cases request with
        | store request => exact hanswers w i request answer w' ha
        | complete seat request =>
            obtain rfl : w' = w := ha
            exact List.prefix_rfl
        | readCodebaseContext repository question =>
            obtain rfl : w' = w := ha
            exact List.prefix_rfl
        | now =>
            obtain rfl : w' = w := ha
            exact List.prefix_rfl
        | timer =>
            obtain rfl : w' = w := ha
            exact List.prefix_rfl
        | uuid =>
            obtain rfl : w' = w := ha
            exact List.prefix_rfl
    | changed w w' programs hc => exact hchanges w w' hc

end Budget

/-- The chat turn budget. With a finite limit, at every place of every run of the turns of any
tenants, over the store in memory and over the database, and with any failure of a model, a
reader or the store: the tenant has at most `limit` reservations; a turn of the tenant calls a
model only once its reservation is committed; the turns of the tenant have made at most six
calls for each reservation that the limit allows; and no reservation is given back. -/
theorem chat_turn_budget {ι : Type} [DecidableEq ι] [Sha256] [ChatLibraries] [AdvisoryHash]
    (turns : ι → ChatTurn) (tenantId : Identifier) (limit : ℕ)
    (hlimit : ∀ i, (turns i).settings.chatModelTurnLimit = some limit) :
    TurnBudget memorySurroundings inMemoryWorkflowStore turns tenantId limit
        (fun m => Memory.reserved m tenantId) MemoryEvent.requester ∧
      TurnBudget (sqlSurroundings tenantId) postgresWorkflowStore turns tenantId limit
        (fun db => Database.reserved db tenantId) StoredEvent.requester := by
  constructor
  · refine turnBudget_of_orderly (inMemory_orderly hlimit) ?_ ?_
    · intro m i request answer m' h
      exact (memory_keeps h).filter _
    · intro m m' h
      cases h with
      | append key event hkind => exact (List.prefix_append _ _).filter _
  · refine turnBudget_of_orderly (postgres_orderly hlimit) ?_ ?_
    · intro db i request answer db' h
      exact (sql_keeps h).filter _
    · intro db db' h
      cases h with
      | lost i => exact List.prefix_rfl
      | item row => exact List.prefix_rfl
      | event row hkind => exact (List.prefix_append _ _).filter _

/-! ## Two turns for one reservation -/

namespace TurnFixture

scoped instance sha256 : Sha256 where
  digest text := ⟨BitVec.ofNat 256 text.length⟩

scoped instance advisoryHash : AdvisoryHash where
  hash key := BitVec.ofNat 64 key.length

scoped instance libraries : ChatLibraries where
  search _ _ := false
  casefold text := text
  businessDraft _ := none
  businessReview _ := none
  draftAnswer _ := none
  independentReview _ := none
  workflowItem _ := none
  workflowItemJson item := String.ofList (ReviewModel.json item).dumps
  workflowEvent _ := none
  workflowEventJson event := String.ofList (ReviewModel.json event).dumps
  estimateModelCost _ _ _ _ _ := .ok none

def tenant : Identifier := ⟨"tenant-a", by decide⟩

def settings : ChatSettings where
  businessAnalyst := some ⟨⟨"openai", "doer-model", "doer"⟩,
    ⟨"anthropic", "reviewer-model", "reviewer"⟩, "us-east-1"⟩
  groundedDiscussion := none
  chatModelTurnLimit := some 1
  chatModelTenantId := some "tenant-a"
  githubRepositories := []
  tenantNamed _ := ⟨"tenant-a", rfl, by decide⟩

/-- Two users of the tenant ask at the same time. -/
def turns (second : Bool) : ChatTurn where
  settings := settings
  current := ⟨tenant, if second then ⟨"user-2", by decide⟩ else ⟨"user-1", by decide⟩, [.operator]⟩
  request := ⟨"Who may approve a refund?", none, [], some .business, none, none, []⟩

end TurnFixture

open TurnFixture in
theorem chat_turn_budget_contended :
    TurnBudget memorySurroundings inMemoryWorkflowStore turns tenant 1
        (fun m => Memory.reserved m tenant) MemoryEvent.requester ∧
      TurnBudget (sqlSurroundings tenant) postgresWorkflowStore turns tenant 1
        (fun db => Database.reserved db tenant) StoredEvent.requester :=
  chat_turn_budget turns tenant 1 fun _ => rfl

end NokincFactory
