import MeJournal.Agents.Tools
import MeJournal.Memory.CleanSession

/-!
# An agent turn on the session of its request

A chat request gives its agent the request's own database session, and every tool call of the turn
runs on it, after whatever the calls before it left there.  The memory service on that session is
`sessionService`; `atomicService` makes each call on its own, on the committed rows.

* `sessionService_lockstep` — the two answer alike, as long as the session is clean.
* `turn_refines_calls` — a whole turn on one session is the same turn over atomic calls.
-/

namespace MeJournal

namespace Tools

open Transactions

variable {R L : Type}

/-! ## The two services -/

/-- The session of the request, what it has done, and the searches made. -/
structure SessionStore (R : Type) where
  db : DbSession R
  effects : List TxEffect
  searches : List SearchCall

/-- A new request. -/
def SessionStore.start (w : World R) : SessionStore R := ⟨DbSession.start w, [], []⟩

/-- A service function, run on the session. -/
def SessionStore.run {α : Type} (g : Tx R α) (s : SessionStore R) :
    Except ServiceError α × SessionStore R :=
  let run := g s.db
  (run.result, { s with db := run.state, effects := s.effects ++ run.emitted })

/-- `app/services/memory.py` on the session `ctx.db`. -/
def sessionService (pf : Platform) (sp : SearchPlatform) (client : SearchClient R) :
    MemoryService (SessionStore R) where
  search userId q limit s :=
    let (result, w) := searchMemories sp client userId q limit ⟨s.db.working, s.db.remote, []⟩
    (result, { s with
      db := { s.db with remote := w.remote }
      searches := s.searches ++ [searchCall userId q limit] })
  create env userId args := SessionStore.run (createTx pf client.toMemoryClient env userId args)
  update env userId memoryId args :=
    SessionStore.run (updateTx pf client.toMemoryClient env userId memoryId args)

/-- The committed world, and the searches made. -/
structure AtomicStore (R : Type) where
  world : World R
  searches : List SearchCall

/-- The same functions, each on the committed rows. -/
def atomicService (pf : Platform) (sp : SearchPlatform) (client : SearchClient R) :
    MemoryService (AtomicStore R) where
  search userId q limit v :=
    let (result, w) := searchMemories sp client userId q limit v.world
    (result, ⟨w, v.searches ++ [searchCall userId q limit]⟩)
  create env userId args v :=
    let (result, w) := createMemory pf client.toMemoryClient env userId args v.world
    (result, { v with world := w })
  update env userId memoryId args v :=
    let (result, w) := updateMemory pf client.toMemoryClient env userId memoryId args v.world
    (result, { v with world := w })

/-! ## One call -/

/-- The client calls of the effects. -/
def clientCalls (effects : List TxEffect) : List ClientCall := effects.filterMap TxEffect.call?

@[simp] theorem clientCalls_append (effects effects' : List TxEffect) :
    clientCalls (effects ++ effects') = clientCalls effects ++ clientCalls effects' :=
  List.filterMap_append

/-- The session has committed the rows of `v`, and has made its calls since `before`. -/
structure Committed (before : List ClientCall) (s : SessionStore R) (v : AtomicStore R) :
    Prop where
  committed : s.db.committed = v.world.memories
  remote : s.db.remote = v.world.remote
  calls : v.world.calls = before ++ clientCalls s.effects
  searches : s.searches = v.searches

/-- The session could serve the next call as a new one would. -/
structure AsNew (before : List ClientCall) (s : SessionStore R) (v : AtomicStore R) : Prop
    extends Committed before s v where
  clean : Clean s.db

section Calls

variable {before : List ClientCall} {s : SessionStore R} {v : AtomicStore R}

theorem AsNew.db_eq (h : AsNew before s v) : s.db = DbSession.start v.world := by
  rw [h.clean.eq_start v.world.calls, h.committed, h.remote]

/-- A write method on the session, and the atomic call. -/
theorem run_alike (h : AsNew before s v) {g : Tx R Memory}
    (hleaves : Leaves CleanAt g fun _ => CleanAt) {p : Except ServiceError Memory × World R}
    (hagrees : Transactions.Agrees v.world (g (DbSession.start v.world)) p) :
    CallsAlike (AsNew before) (Committed before) (s.run g) (p.1, { v with world := p.2 }) := by
  have hrun : s.run g = ((g (DbSession.start v.world)).result,
      { s with
        db := (g (DbSession.start v.world)).state
        effects := s.effects ++ (g (DbSession.start v.world)).emitted }) := by
    rw [SessionStore.run, h.db_eq]
  rw [hrun]
  have hcommitted : Committed before
      { s with
        db := (g (DbSession.start v.world)).state
        effects := s.effects ++ (g (DbSession.start v.world)).emitted }
      { v with world := p.2 } := by
    refine ⟨hagrees.committed, hagrees.remote, ?_, h.searches⟩
    rw [clientCalls_append, ← List.append_assoc, ← h.calls]
    exact hagrees.calls
  refine ⟨hagrees.result, ?_⟩
  rcases hleaves.clean v.world with ⟨d, hrefused⟩ | hclean
  · rw [hrefused]
    dsimp only [CallEnds]
    rw [if_neg (by simp [refused_not_recoverable d])]
    exact hcommitted
  · exact callEnds_of ⟨hcommitted, hclean⟩ hcommitted _

theorem search_alike (sp : SearchPlatform) (client : SearchClient R) (h : AsNew before s v)
    (pf : Platform) (userId : UUID) (q : Text) (limit : Int) :
    CallsAlike (AsNew before) (Committed before)
      ((sessionService pf sp client).search userId q limit s)
      ((atomicService pf sp client).search userId q limit v) := by
  obtain ⟨⟨committed, working, dirty, remote⟩, effects, searches⟩ := s
  obtain ⟨⟨hcommitted, hremote, hcalls, hsearches⟩, hworking, hdirty⟩ := h
  obtain rfl : working = committed := hworking
  obtain rfl : dirty = none := hdirty
  obtain rfl : working = v.world.memories := hcommitted
  obtain rfl : remote = v.world.remote := hremote
  obtain rfl : searches = v.searches := hsearches
  refine ⟨rfl, ?_⟩
  have hafter : AsNew before
      ((sessionService pf sp client).search userId q limit
        ⟨⟨v.world.memories, v.world.memories, none, v.world.remote⟩, effects, v.searches⟩).2
      ((atomicService pf sp client).search userId q limit v).2 :=
    ⟨⟨rfl, rfl, hcalls, rfl⟩, rfl, rfl⟩
  exact callEnds_of hafter hafter.toCommitted _

/-- **The session serves call after call as atomic calls would.** -/
theorem sessionService_lockstep (pf : Platform) (sp : SearchPlatform) (client : SearchClient R)
    (userId : UUID) : ServiceLockstep userId (AsNew before) (Committed before)
      (sessionService pf sp client) (atomicService pf sp client) where
  search q limit _ _ hv := search_alike sp client hv pf userId q limit
  create env args _ v hv := run_alike hv (createTx_leaves pf client.toMemoryClient env userId args)
    (createTx_agrees pf client.toMemoryClient env userId args v.world)
  update env memoryId args _ v hv :=
    run_alike hv (updateTx_leaves pf client.toMemoryClient env userId memoryId args)
      (updateTx_agrees pf client.toMemoryClient env userId memoryId args v.world)
  lost _ _ hv := hv.toCommitted

end Calls

/-! ## A whole turn -/

/-- A turn of the agent on the session of a new request. -/
def sessionTurn (pf : Platform) (sp : SearchPlatform) (client : SearchClient R)
    (setup : TurnSetup L) (input : AgentInput) (w : World R) (llm : L) :
    GenRun (RuntimeState (TurnWorld (SessionStore R) L)) PyExc (Packet ToolModel) Unit :=
  runAgentStream pf (agentEnv (sessionService pf sp client) setup) input
    ⟨[], SessionStore.start w, llm, 0⟩

/-- The same turn over atomic calls. -/
def atomicTurn (pf : Platform) (sp : SearchPlatform) (client : SearchClient R)
    (setup : TurnSetup L) (input : AgentInput) (w : World R) (llm : L) :
    GenRun (RuntimeState (TurnWorld (AtomicStore R) L)) PyExc (Packet ToolModel) Unit :=
  runAgentStream pf (agentEnv (atomicService pf sp client) setup) input
    ⟨[], ⟨w, []⟩, llm, 0⟩

/-- What a turn on the session shares with the turn over atomic calls. -/
theorem sessionTurn_alike (pf : Platform) (sp : SearchPlatform) (client : SearchClient R)
    (setup : TurnSetup L) (input : AgentInput) (w : World R) (llm : L) :
    let run := sessionTurn pf sp client setup input w llm
    let run' := atomicTurn pf sp client setup input w llm
    run.emitted = run'.emitted ∧ run.result = run'.result ∧
      run.state.messages = run'.state.messages ∧
      Committed w.calls run.state.world.store run'.state.world.store := by
  intro run run'
  have hstart : InTurn (AsNew w.calls)
      (⟨SessionStore.start w, llm, 0⟩ : TurnWorld (SessionStore R) L) ⟨⟨w, []⟩, llm, 0⟩ :=
    ⟨⟨⟨rfl, rfl, (List.append_nil _).symm, rfl⟩, clean_start w⟩, rfl, rfl⟩
  obtain ⟨hemitted, hresult, hmessages, hworld⟩ := runAgentStream_alike
    (agentEnv_lockstep setup (sessionService_lockstep pf sp client setup.userId))
    pf input hstart []
  exact ⟨hemitted, hresult, hmessages, hworld.1⟩

/-- **A turn of the agent on one session is the same turn over atomic calls**: the same packets,
the same messages to the model, the same end; the session has committed the rows that the atomic
calls leave and has made their client calls and searches. -/
theorem turn_refines_calls (pf : Platform) (sp : SearchPlatform) (client : SearchClient R)
    (setup : TurnSetup L) (input : AgentInput) (w : World R) (llm : L) :
    let run := sessionTurn pf sp client setup input w llm
    let run' := atomicTurn pf sp client setup input w llm
    let store := run.state.world.store
    let store' := run'.state.world.store
    run.emitted = run'.emitted ∧ run.result = run'.result ∧
      run.state.messages = run'.state.messages ∧
      store.db.committed = store'.world.memories ∧ store.db.remote = store'.world.remote ∧
      store'.world.calls = w.calls ++ store.effects.filterMap TxEffect.call? ∧
      store.searches = store'.searches := by
  intro run run' store store'
  obtain ⟨hemitted, hresult, hmessages, hcommitted⟩ :=
    sessionTurn_alike pf sp client setup input w llm
  exact ⟨hemitted, hresult, hmessages, hcommitted.committed, hcommitted.remote, hcommitted.calls,
    hcommitted.searches⟩

end Tools

end MeJournal
