import MeJournal.Agents.Sandbox
import MeJournal.Lib.Arrange
import MeJournal.Memory.SearchOrder

/-!
# What other users store does not reach the agent

Two databases that hold the same rows of the user, with the same ids taken.  The ids matter: an
insert under an id that is taken fails, whoever holds it.  The queries of a search leave the order
of rows open; the rows of the second database can come back as those of the first do.

* `Aligned`, `SeenAlike` — such databases, with the same remote state.
* `createMemory_seenAlike`, `updateMemory_seenAlike`, `searchMemories_seenAlike` — a call answers
  the user alike on both, and leaves them alike.
* `turn_blind_to_others` — every turn of the agent that is possible on the one is possible on the
  other.
-/

namespace MeJournal

namespace Tools

open Transactions ManageMemory

variable {R L : Type}

/-! ## Ids in order -/

/-- The ids of the user's rows. -/
def ownIds (userId : UUID) (t : MemoryTable) : List UUID :=
  (t.rows.filter fun m => m.userId = userId).map Memory.id

theorem ownIds_put {userId : UUID} {t : MemoryTable} {row row' : Memory} (hrow : row ∈ t.rows)
    (hid : row'.id = row.id) (huser : row'.userId = row.userId) :
    ownIds userId (t.put row') = ownIds userId t := by
  rw [ownIds, Table.put_rows, List.filter_map, List.map_map, ownIds]
  have hsame : ∀ m ∈ t.rows, (if m.id = row'.id then row' else m).id = m.id ∧
      (if m.id = row'.id then row' else m).userId = m.userId := by
    intro m hm
    split
    · rename_i heq
      rw [t.eq_of_key_eq hm hrow (heq.trans hid)]
      exact ⟨hid, huser⟩
    · exact ⟨rfl, rfl⟩
  have hfilter : t.rows.filter ((fun m => decide (m.userId = userId)) ∘
      fun m => if m.id = row'.id then row' else m) = t.rows.filter fun m => m.userId = userId :=
    List.filter_congr fun m hm => by rw [Function.comp_apply, (hsame m hm).2]
  rw [hfilter]
  exact List.map_congr_left fun m hm => (hsame m (List.mem_filter.1 hm).1).1

theorem ownIds_insert {userId : UUID} {t u : MemoryTable} {row : Memory}
    (h : t.insert? row = some u) (huser : row.userId = userId) :
    ownIds userId u = ownIds userId t ++ [row.id] := by
  rw [ownIds, (Table.insert?_eq_some.1 h).2, List.filter_append,
    List.filter_cons_of_pos (by simpa using huser), List.map_append]
  rfl

theorem mem_ownIds_has {userId : UUID} {t : MemoryTable} {id : UUID} (h : id ∈ ownIds userId t) :
    t.has id = true := by
  obtain ⟨m, hm, hid⟩ := List.mem_map.1 h
  exact Table.has_iff.2 ⟨m, (List.mem_filter.1 hm).1, hid⟩

theorem ownIds_nodup (userId : UUID) (t : MemoryTable) : (ownIds userId t).Nodup :=
  t.pk.sublist (List.filter_sublist.map Memory.id)

/-! ## Two databases -/

/-- The same rows of the user and the same ids taken; in the second database the user's rows stand
in another order, and `ids` puts them in that of the first. -/
structure Aligned (ids : List UUID) (userId : UUID) (w w' : World R) : Prop
    extends w.Alike userId w' where
  arranged : ownIds userId w.memories = arrange id ids (ownIds userId w'.memories)
  kept : ∀ id ∈ ids, w.memories.has id = true
  taken : ∀ id, w.memories.has id = w'.memories.has id

/-- Such databases, as the service leaves them. -/
structure SeenAlike (pf : Platform) (ids : List UUID) (userId : UUID) (w w' : World R) : Prop
    extends Aligned ids userId w w' where
  inv : RowsInv pf w.memories
  inv' : RowsInv pf w'.memories

/-- Rows come back as from `o`, when they come to it in the order of `ids`. -/
def arrangedOrder (o : RowOrder) (ids : List UUID) : RowOrder where
  order rows := o.order (arrange Memory.id ids rows)
  order_perm rows := (o.order_perm _).trans (perm_arrange Memory.id ids rows)

section

variable {pf : Platform} {ids : List UUID} {userId : UUID} {w w' : World R}

/-- Each selection of the user's rows is in the one database what it is in the other, arranged. -/
theorem Aligned.filter_eq (h : Aligned ids userId w w') {p : Memory → Bool}
    (hp : ∀ m, p m = true → m.userId = userId) :
    w.memories.rows.filter p = arrange Memory.id ids (w'.memories.rows.filter p) := by
  have hown : (w.memories.rows.filter fun m => m.userId = userId) =
      arrange Memory.id ids (w'.memories.rows.filter fun m => m.userId = userId) := by
    refine rows_eq_arrange w.memories (fun m hm => (List.mem_filter.1 hm).1) (fun m hm => ?_)
      h.arranged
    obtain ⟨hmem, huser⟩ := List.mem_filter.1 hm
    exact (h.own m (of_decide_eq_true huser)).2 hmem
  have hboth : ∀ rows : List Memory,
      (rows.filter fun m => m.userId = userId).filter p = rows.filter p := by
    intro rows
    rw [List.filter_filter]
    refine List.filter_congr fun m _ => ?_
    cases hpm : p m with
    | false => rfl
    | true => simp [hp m hpm]
  rw [← hboth w.memories.rows, hown, filter_arrange, hboth]

theorem Aligned.order_eq (h : Aligned ids userId w w') (o : RowOrder) {p : Memory → Bool}
    (hp : ∀ m, p m = true → m.userId = userId) :
    o.order (w.memories.rows.filter p) =
      (arrangedOrder o ids).order (w'.memories.rows.filter p) :=
  congrArg o.order (h.filter_eq hp)

/-! ## Searching -/

theorem searchMemories_seenAlike (sp : SearchPlatform) (client : SearchClient R) (q : Text)
    (limit : Int) (o : RowOrder) (h : SeenAlike pf ids userId w w') :
    (searchMemories (sp.inOrder o) client userId q limit w).1 =
        (searchMemories (sp.inOrder (arrangedOrder o ids)) client userId q limit w').1 ∧
      SeenAlike pf ids userId (searchMemories (sp.inOrder o) client userId q limit w).2
        (searchMemories (sp.inOrder (arrangedOrder o ids)) client userId q limit w').2 := by
  simp only [searchMemories, ← h.remote]
  refine ⟨?_, ⟨⟨h.own, rfl, h.calls⟩, h.arranged, h.kept, h.taken⟩, h.inv, h.inv'⟩
  split
  · refine searchLocalFallback_congr (h.order_eq o fun m hm => ?_) _
    simp only [Bool.and_eq_true, decide_eq_true_eq] at hm
    exact hm.1.1
  · refine lookupHits_congr sp (h.order_eq o fun m hm => ?_)
    simp only [Bool.and_eq_true, decide_eq_true_eq] at hm
    exact hm.1.2

/-! ## `create_memory` -/

/-- One live row of a user at most has a hash. -/
theorem findByHash_eq_some {t : MemoryTable} (h : RowsInv pf t) {digest : Digest} {m : Memory} :
    findByHash t userId digest = some m ↔
      m ∈ t.rows ∧ m.userId = userId ∧ m.contentHash = digest ∧ m.live := by
  constructor
  · intro hfind
    have hm := List.find?_some hfind
    simp only [Bool.and_eq_true, decide_eq_true_eq, Option.isNone_iff_eq_none] at hm
    exact ⟨List.mem_of_find?_eq_some hfind, hm.1.1, hm.1.2, hm.2⟩
  · rintro ⟨hmem, huser, hhash, hlive⟩
    cases hfind : findByHash t userId digest with
    | none =>
      have hnone := List.find?_eq_none.1 hfind m hmem
      simp [huser, hhash, hlive] at hnone
    | some n =>
      have hn := List.find?_some hfind
      simp only [Bool.and_eq_true, decide_eq_true_eq, Option.isNone_iff_eq_none] at hn
      have hid := h.unique n (List.mem_of_find?_eq_some hfind) m hmem hn.2 hlive
        (hn.1.1.trans huser.symm) (hn.1.2.trans hhash.symm)
      rw [t.eq_of_key_eq (List.mem_of_find?_eq_some hfind) hmem hid]

theorem SeenAlike.findByHash_eq (h : SeenAlike pf ids userId w w') (digest : Digest) :
    findByHash w.memories userId digest = findByHash w'.memories userId digest := by
  refine Option.ext fun m => ?_
  rw [findByHash_eq_some h.inv, findByHash_eq_some h.inv']
  constructor
  · rintro ⟨hm, huser, hrest⟩
    exact ⟨(h.own m huser).1 hm, huser, hrest⟩
  · rintro ⟨hm, huser, hrest⟩
    exact ⟨(h.own m huser).2 hm, huser, hrest⟩

/-- The user's row, inserted. -/
theorem sameOwn_insert {t t' u u' : MemoryTable} {row : Memory} (hown : SameOwn userId t t')
    (hinsert : t.insert? row = some u) (hinsert' : t'.insert? row = some u') :
    SameOwn userId u u' := by
  intro m hm
  rw [Table.mem_insert? hinsert, Table.mem_insert? hinsert', hown m hm]

/-- The insert of a row of the user: it fails, conflicts or succeeds on both. -/
theorem insert_seenAlike (h : SeenAlike pf ids userId w w') {row : Memory}
    (huser : row.userId = userId) :
    (∃ r, insertOnConflictDoNothing pf w.memories row = r ∧
      insertOnConflictDoNothing pf w'.memories row = r ∧ ∀ u, r ≠ .ok (some u)) ∨
    ∃ u u', insertOnConflictDoNothing pf w.memories row = .ok (some u) ∧
      insertOnConflictDoNothing pf w'.memories row = .ok (some u') ∧
      w.memories.insert? row = some u ∧ w'.memories.insert? row = some u' := by
  unfold insertOnConflictDoNothing
  rw [huser, h.findByHash_eq]
  split
  · exact Or.inl ⟨_, rfl, rfl, fun _ h => by cases h⟩
  split
  · exact Or.inl ⟨_, rfl, rfl, fun _ h => by cases h⟩
  split
  · exact Or.inl ⟨_, rfl, rfl, fun _ h => by cases h⟩
  cases hinsert : w.memories.insert? row with
  | none =>
    have hhas : w.memories.has row.id = true := Table.has_iff.2 (Table.insert?_eq_none.1 hinsert)
    rw [Table.insert?_eq_none.2 (Table.has_iff.1 ((h.taken row.id).symm.trans hhas))]
    exact Or.inl ⟨_, rfl, rfl, fun _ h => by cases h⟩
  | some u =>
    have hfree : w.memories.has row.id = false :=
      Table.has_eq_false.2 (Table.insert?_eq_some.1 hinsert).1
    obtain ⟨u', hinsert'⟩ :=
      Table.insert?_of_fresh (Table.has_eq_false.1 ((h.taken row.id).symm.trans hfree))
    rw [hinsert']
    exact Or.inr ⟨u, u', rfl, rfl, rfl, rfl⟩

/-- What an inserted and committed row leaves of the ids. -/
theorem ownIds_created {t u : MemoryTable} {row : Memory} {p : Memory × World R}
    (hinsert : t.insert? row = some u) (huser : row.userId = userId) (hkeeps : row.Keeps p.1) :
    ownIds userId (commitRow u p).memories = ownIds userId t ++ [row.id] := by
  have hrow : row ∈ u.rows := (Table.mem_insert? hinsert).2 (Or.inr rfl)
  rw [commitRow_memories, ownIds_put hrow hkeeps.id hkeeps.userId, ownIds_insert hinsert huser]

/-- The user's new row, sent and committed on both. -/
theorem Aligned.created (h : Aligned ids userId w w') (client : MemoryClient R) (env : Env)
    {row : Memory} (huser : row.userId = userId) {u u' : MemoryTable}
    (hinsert : w.memories.insert? row = some u) (hinsert' : w'.memories.insert? row = some u') :
    (sendToSupermemoryAdd client env row w).1 = (sendToSupermemoryAdd client env row w').1 ∧
      Aligned ids userId (commitRow u (sendToSupermemoryAdd client env row w))
        (commitRow u' (sendToSupermemoryAdd client env row w')) := by
  have hfresh : w.memories.has row.id = false :=
    Table.has_eq_false.2 (Table.insert?_eq_some.1 hinsert).1
  have hnew : row ∈ u.rows := (Table.mem_insert? hinsert).2 (Or.inr rfl)
  have hsent := sendToSupermemoryAdd_alike client env row h.toAlike
  have hkeeps := sendToSupermemoryAdd_keeps client env row
  refine ⟨hsent.1, commitRow_alike (sameOwn_insert h.own hinsert hinsert') hnew huser
    (hkeeps w).id hsent, ?_, fun id hid => ?_, fun id => ?_⟩
  · rw [ownIds_created hinsert huser (hkeeps w), ownIds_created hinsert' huser (hkeeps w'),
      arrange_append, ← h.arranged]
    exact fun hmem => Bool.false_ne_true (hfresh.symm.trans (h.kept _ hmem))
  · rw [commitRow_memories, Table.has_put, Table.has_insert? hinsert, h.kept id hid, Bool.true_or]
  · rw [commitRow_memories, commitRow_memories, Table.has_put, Table.has_put,
      Table.has_insert? hinsert, Table.has_insert? hinsert', h.taken id]

theorem createMemory_aligned (client : MemoryClient R) (env : Env) (args : CreateArgs)
    (h : SeenAlike pf ids userId w w') :
    (createMemory pf client env userId args w).1 = (createMemory pf client env userId args w').1 ∧
      Aligned ids userId (createMemory pf client env userId args w).2
        (createMemory pf client env userId args w').2 := by
  unfold createMemory
  cases checkCreate pf args with
  | error e => exact ⟨rfl, h.toAligned⟩
  | ok text =>
    have hfound : args.idempotencyId.bind (findOwned w.memories userId) =
        args.idempotencyId.bind (findOwned w'.memories userId) :=
      congrArg _ (funext h.own.findOwned)
    dsimp only
    rw [hfound]
    cases args.idempotencyId.bind (findOwned w'.memories userId) with
    | some existing =>
      dsimp only
      split
      · exact ⟨rfl, h.toAligned⟩
      · exact ⟨rfl, h.toAligned⟩
    | none =>
      dsimp only
      have huser : (newRow pf env userId args text).userId = userId := rfl
      rcases insert_seenAlike h huser with
        ⟨r, hins, hins', hfailed⟩ | ⟨u, u', hins, hins', hinsert, hinsert'⟩
      · rw [hins, hins']
        cases r with
        | error e => exact ⟨rfl, h.toAligned⟩
        | ok inserted =>
          cases inserted with
          | some u => exact absurd rfl (hfailed u)
          | none =>
            dsimp only
            rw [h.findByHash_eq]
            split
            · exact ⟨rfl, h.toAligned⟩
            · exact ⟨rfl, h.toAligned⟩
      · rw [hins, hins']
        have hcreated := h.toAligned.created client env huser hinsert hinsert'
        exact ⟨congrArg Except.ok hcreated.1, hcreated.2⟩

theorem createMemory_seenAlike (client : MemoryClient R) (env : Env) (args : CreateArgs)
    (h : SeenAlike pf ids userId w w') :
    (createMemory pf client env userId args w).1 = (createMemory pf client env userId args w').1 ∧
      SeenAlike pf ids userId (createMemory pf client env userId args w).2
        (createMemory pf client env userId args w').2 := by
  obtain ⟨hresult, haligned⟩ := createMemory_aligned client env args h
  exact ⟨hresult, haligned, rowsInv_handle pf client env h.inv (.create userId args),
    rowsInv_handle pf client env h.inv' (.create userId args)⟩

/-! ## `update_memory` -/

/-- A patch keeps the ids. -/
theorem updateMemory_ids (pf : Platform) (client : MemoryClient R) (env : Env)
    (userId memoryId : UUID) (args : UpdateArgs) (w : World R) :
    ownIds userId (updateMemory pf client env userId memoryId args w).2.memories =
        ownIds userId w.memories ∧
      ∀ id, (updateMemory pf client env userId memoryId args w).2.memories.has id =
        w.memories.has id := by
  have heff := updateMemory_effect pf client env userId memoryId args w
  generalize (updateMemory pf client env userId memoryId args w).2 = w' at heff ⊢
  cases heff with
  | unchanged => exact ⟨rfl, fun _ => rfl⟩
  | @updated _ row row' changed memories hrow hlive hpatch hflush =>
    obtain ⟨hid, huser, -⟩ := applyPatch_ids hpatch
    have hkeeps := pushRow_keeps client env row' changed w
    obtain rfl := flush_ok hflush
    refine ⟨?_, fun id => ?_⟩
    · rw [commitRow_memories, ownIds_put (Table.mem_put_self hrow hid.symm) hkeeps.id hkeeps.userId,
        ownIds_put hrow hid huser]
    · rw [commitRow_memories, Table.has_put, Table.has_put]

theorem updateMemory_seenAlike (client : MemoryClient R) (env : Env) (memoryId : UUID)
    (args : UpdateArgs) (h : SeenAlike pf ids userId w w') :
    (updateMemory pf client env userId memoryId args w).1 =
        (updateMemory pf client env userId memoryId args w').1 ∧
      SeenAlike pf ids userId (updateMemory pf client env userId memoryId args w).2
        (updateMemory pf client env userId memoryId args w').2 := by
  obtain ⟨hresult, halike⟩ := updateMemory_alike pf client env memoryId args h.toAlike
  obtain ⟨hids, hhas⟩ := updateMemory_ids pf client env userId memoryId args w
  obtain ⟨hids', hhas'⟩ := updateMemory_ids pf client env userId memoryId args w'
  refine ⟨hresult, ⟨halike, ?_, fun id hid => ?_, fun id => ?_⟩, ?_, ?_⟩
  · rw [hids, hids', h.arranged]
  · rw [hhas, h.kept id hid]
  · rw [hhas, hhas', h.taken id]
  · exact rowsInv_handle pf client env h.inv (.update userId memoryId args)
  · exact rowsInv_handle pf client env h.inv' (.update userId memoryId args)

end

/-! ## A whole turn -/

/-- **The service answers a user alike on both databases.** -/
theorem atomicService_seenAlike (pf : Platform) (sp : SearchPlatform) (client : SearchClient R)
    (userId : UUID) (o : RowOrder) (ids : List UUID) :
    ServiceLockstep userId
      (fun v v' : AtomicStore R =>
        SeenAlike pf ids userId v.world v'.world ∧ v.searches = v'.searches)
      (fun v v' => SeenAlike pf ids userId v.world v'.world ∧ v.searches = v'.searches)
      (atomicService pf (sp.inOrder o) client)
      (atomicService pf (sp.inOrder (arrangedOrder o ids)) client) where
  search := by
    rintro q limit v v' ⟨hworld, hsearches⟩
    obtain ⟨hresult, hafter⟩ := searchMemories_seenAlike sp client q limit o hworld
    have hcalled := congrArg (· ++ [searchCall userId q limit]) hsearches
    exact ⟨hresult, callEnds_of ⟨hafter, hcalled⟩ ⟨hafter, hcalled⟩ _⟩
  create := by
    rintro env args v v' ⟨hworld, hsearches⟩
    obtain ⟨hresult, hafter⟩ := createMemory_seenAlike client.toMemoryClient env args hworld
    exact ⟨hresult, callEnds_of ⟨hafter, hsearches⟩ ⟨hafter, hsearches⟩ _⟩
  update := by
    rintro env memoryId args v v' ⟨hworld, hsearches⟩
    obtain ⟨hresult, hafter⟩ :=
      updateMemory_seenAlike client.toMemoryClient env memoryId args hworld
    exact ⟨hresult, callEnds_of ⟨hafter, hsearches⟩ ⟨hafter, hsearches⟩ _⟩
  lost := fun _ _ hv => hv

/-- **A turn does not depend on what other users store**: take two databases, as the service leaves
them, that hold the same rows of the user and have the same ids taken.  For each order in which the
one returns rows there is one of the other with which the turn shows the same packets, sends the
model the same messages, makes the same searches and client calls, and commits the same rows of the
user. -/
theorem turn_blind_to_others (pf : Platform) (sp : SearchPlatform) (client : SearchClient R)
    (setup : TurnSetup L) (input : AgentInput) (memories memories' : MemoryTable) (remote : R)
    (llm : L) (hinv : RowsInv pf memories) (hinv' : RowsInv pf memories')
    (hown : SameOwn setup.userId memories memories')
    (htaken : ∀ id, memories.has id = memories'.has id) (o : RowOrder) :
    ∃ o' : RowOrder,
      let run := sessionTurn pf (sp.inOrder o) client setup input ⟨memories, remote, []⟩ llm
      let run' := sessionTurn pf (sp.inOrder o') client setup input ⟨memories', remote, []⟩ llm
      let store := run.state.world.store
      let store' := run'.state.world.store
      run.emitted = run'.emitted ∧ run.result = run'.result ∧
        run.state.messages = run'.state.messages ∧ store.searches = store'.searches ∧
        clientCalls store.effects = clientCalls store'.effects ∧
        store.db.remote = store'.db.remote ∧
        SameOwn setup.userId store.db.committed store'.db.committed := by
  let ids := ownIds setup.userId memories
  refine ⟨arrangedOrder o ids, ?_⟩
  intro run run' store store'
  obtain ⟨hemitted, hresult, hmessages, hstore⟩ :=
    sessionTurn_alike pf (sp.inOrder o) client setup input ⟨memories, remote, []⟩ llm
  obtain ⟨hemitted', hresult', hmessages', hstore'⟩ :=
    sessionTurn_alike pf (sp.inOrder (arrangedOrder o ids)) client setup input
      ⟨memories', remote, []⟩ llm
  have hperm : (ownIds setup.userId memories').Perm ids := by
    refine (SameOwn.filter_perm hown fun m hm => ?_).symm.map Memory.id
    exact of_decide_eq_true hm
  have hseen : SeenAlike pf ids setup.userId (⟨memories, remote, []⟩ : World R)
      ⟨memories', remote, []⟩ :=
    ⟨⟨⟨hown, rfl, rfl⟩, (arrange_perm (ownIds_nodup setup.userId memories) hperm).symm,
      fun id hid => mem_ownIds_has hid, htaken⟩, hinv, hinv'⟩
  have hstart : InTurn
      (fun v v' : AtomicStore R =>
        SeenAlike pf ids setup.userId v.world v'.world ∧ v.searches = v'.searches)
      (⟨⟨⟨memories, remote, []⟩, []⟩, llm, 0⟩ : TurnWorld (AtomicStore R) L)
      ⟨⟨⟨memories', remote, []⟩, []⟩, llm, 0⟩ :=
    ⟨⟨hseen, rfl⟩, rfl, rfl⟩
  obtain ⟨hemit, hres, hmess, ⟨hworld, hsearches⟩, -⟩ := runAgentStream_alike
    (agentEnv_lockstep setup (atomicService_seenAlike pf sp client setup.userId o ids))
    pf input hstart []
  refine ⟨hemitted.trans (hemit.trans hemitted'.symm), hresult.trans (hres.trans hresult'.symm),
    hmessages.trans (hmess.trans hmessages'.symm), ?_, ?_, ?_, ?_⟩
  · rw [hstore.searches, hstore'.searches]
    exact hsearches
  · exact hstore.calls.symm.trans (Eq.trans hworld.calls hstore'.calls)
  · rw [hstore.remote, hstore'.remote]
    exact hworld.remote
  · rw [hstore.committed, hstore'.committed]
    exact hworld.own

/-- A library that reads the JSON of a search as its query. -/
def plainTools : ToolLibrary where
  args := plainLibrary
  searchInput json := .ok (json, none)
  manageInput json := .error json
  refusal _ := []
  dumpJson _ := .ok []

/-- A model that asks for one search. -/
def searchOnce : TurnSetup Bool where
  userId := 7
  library := plainTools
  model asked _ :=
    let call : ToolCallDelta :=
      ⟨0, some "call", some ⟨some "search_memories", some "ran".toList⟩⟩
    (⟨if asked then [] else [⟨[⟨none, some [call], some "tool_calls"⟩]⟩], none⟩, true)
  clock _ := ⟨0, 0, 3⟩

def askedRan : AgentInput := ⟨7, "ran".toList, [], "UTC".toList, [], fun _ => none⟩

theorem rowsInv_memoriesAfter (es : List MemoryEvent) :
    RowsInv utcPlatform (memoriesAfter es) := by
  refine Runs.inv_run (I := fun w : World Backend => RowsInv utcPlatform w.memories)
    (fun w e h => rowsInv_handle utcPlatform backend e.env h e.req) ?_ es
  constructor <;> simp [initialWorld]

/-- The row of the id 2 belongs to one other user, or to another. -/
theorem turn_blind_to_others_ran : ∃ o : RowOrder,
    (sessionTurn utcPlatform (tableOrder.inOrder tableOrder.toRowOrder) namesTheOther searchOnce
        askedRan ⟨memoriesAfter [ranOf 7 1, ranOf 8 2], ⟨fun _ => none, .err .base⟩, []⟩
        false).emitted =
      (sessionTurn utcPlatform (tableOrder.inOrder o) namesTheOther searchOnce askedRan
        ⟨memoriesAfter [ranOf 7 1, ranOf 9 2], ⟨fun _ => none, .err .base⟩, []⟩
        false).emitted := by
  obtain ⟨o, hemitted, -⟩ := turn_blind_to_others utcPlatform tableOrder namesTheOther searchOnce
    askedRan _ _ ⟨fun _ => none, .err .base⟩ false (rowsInv_memoriesAfter [ranOf 7 1, ranOf 8 2])
    (rowsInv_memoriesAfter [ranOf 7 1, ranOf 9 2]) (SameOwn.of_filter (by decide +kernel))
    (Table.has_congr (by decide +kernel)) tableOrder.toRowOrder
  exact ⟨o, hemitted⟩

end Tools

end MeJournal
