import MeJournal.Agents.TurnRefinement
import MeJournal.Memory.RowHistory
import MeJournal.Memory.WellFormed

/-!
# What a turn of the agent may do to the memories

The model decides which tools are called and with what arguments, and may follow text that it has
read in a memory.  Whatever it asks for, a turn can add memories of its own user and edit live ones,
and nothing else.

* `Edits userId t u` — every change from `t` to `u` is such a change; reflexive and transitive.
* `ServiceKeeps`, `agentTurn_keeps` — what every call of the service keeps, a turn keeps.
* `turn_confined` — a turn stays within its user's live memories and deletes nothing.
-/

namespace MeJournal

namespace Tools

open Transactions Patches

variable {R L V : Type}

/-! ## Invariants of a turn -/

/-- Every call of the service for the user keeps `Inv`. -/
structure ServiceKeeps (userId : UUID) (Inv : V → Prop) (service : MemoryService V) : Prop where
  search : ∀ q limit v, Inv v → Inv (service.search userId q limit v).2
  create : ∀ env args v, Inv v → Inv (service.create env userId args v).2
  update : ∀ env memoryId args v, Inv v → Inv (service.update env userId memoryId args v).2

theorem ServiceKeeps.lockstep {userId : UUID} {Inv : V → Prop} {service : MemoryService V}
    (h : ServiceKeeps userId Inv service) :
    ServiceLockstep userId (fun v v' => v = v' ∧ Inv v) (fun v v' => v = v' ∧ Inv v)
      service service where
  search := by
    rintro q limit v _ ⟨rfl, hv⟩
    have hafter := h.search q limit v hv
    exact ⟨rfl, callEnds_of ⟨rfl, hafter⟩ ⟨rfl, hafter⟩ _⟩
  create := by
    rintro env args v _ ⟨rfl, hv⟩
    have hafter := h.create env args v hv
    exact ⟨rfl, callEnds_of ⟨rfl, hafter⟩ ⟨rfl, hafter⟩ _⟩
  update := by
    rintro env memoryId args v _ ⟨rfl, hv⟩
    have hafter := h.update env memoryId args v hv
    exact ⟨rfl, callEnds_of ⟨rfl, hafter⟩ ⟨rfl, hafter⟩ _⟩
  lost := fun _ _ hv => hv

/-- **What every call keeps, a turn keeps**, whatever the model asks for. -/
theorem agentTurn_keeps {setup : TurnSetup L} {Inv : V → Prop} {service : MemoryService V}
    (h : ServiceKeeps setup.userId Inv service) (pf : Platform) (input : AgentInput) {v : V}
    (hv : Inv v) (llm : L) :
    Inv (runAgentStream pf (agentEnv service setup) input ⟨[], v, llm, 0⟩).state.world.store := by
  have hstart : InTurn (fun v v' => v = v' ∧ Inv v) (⟨v, llm, 0⟩ : TurnWorld V L) ⟨v, llm, 0⟩ :=
    ⟨⟨rfl, hv⟩, rfl, rfl⟩
  obtain ⟨-, -, -, hworld⟩ :=
    runAgentStream_alike (agentEnv_lockstep setup h.lockstep) pf input hstart []
  exact hworld.1.2

/-! ## Additions and edits of one user -/

/-- From `t` to `u` rows were added for the user, and live rows of the user were edited. -/
structure Edits (userId : UUID) (t u : MemoryTable) : Prop where
  kept : ∀ m ∈ t.rows, ∃ m' ∈ u.rows, m.Becomes m' ∧ m'.deletedAt = m.deletedAt ∧
    (m.userId ≠ userId ∨ ¬ m.live → m' = m)
  added : ∀ m' ∈ u.rows, t.has m'.id = false → m'.userId = userId ∧ m'.live

section Edits

variable {userId : UUID} {t u v : MemoryTable} {row row' : Memory}

theorem Edits.refl (t : MemoryTable) : Edits userId t t where
  kept m hm := ⟨m, hm, .refl m, rfl, fun _ => rfl⟩
  added m hm hnew := by
    rw [Table.has_iff.2 ⟨m, hm, rfl⟩] at hnew
    cases hnew

theorem Edits.trans (h : Edits userId t u) (h' : Edits userId u v) : Edits userId t v where
  kept m hm := by
    obtain ⟨m', hm', hbecomes, hdeleted, hsame⟩ := h.kept m hm
    obtain ⟨m'', hm'', hbecomes', hdeleted', hsame'⟩ := h'.kept m' hm'
    refine ⟨m'', hm'', hbecomes.trans hbecomes', hdeleted'.trans hdeleted, fun hother => ?_⟩
    obtain rfl := hsame hother
    exact hsame' hother
  added m'' hm'' hnew := by
    cases hu : u.has m''.id with
    | false => exact h'.added m'' hm'' hu
    | true =>
      -- the row was added on the way, and has kept its user and its life
      obtain ⟨m', hm', hid⟩ := Table.has_iff.1 hu
      obtain ⟨huser, hlive⟩ := h.added m' hm' (by rw [hid]; exact hnew)
      obtain ⟨n, hn, hbecomes, hdeleted, -⟩ := h'.kept m' hm'
      obtain rfl := v.eq_of_key_eq hn hm'' (hbecomes.id.trans hid)
      exact ⟨hbecomes.userId.trans huser, hdeleted.trans hlive⟩

/-- An edit of a live row of the user. -/
theorem edits_put (hrow : row ∈ t.rows) (huser : row.userId = userId) (hlive : row.live)
    (hbecomes : row.Becomes row') (hdeleted : row'.deletedAt = row.deletedAt) :
    Edits userId t (t.put row') where
  kept m hm := by
    by_cases hid : m.id = row'.id
    · obtain rfl := t.eq_of_key_eq hm hrow (hid.trans hbecomes.id)
      refine ⟨row', Table.mem_put_self hm hid, hbecomes, hdeleted, ?_⟩
      rintro (hother | hdead)
      · exact absurd huser hother
      · exact absurd hlive hdead
    · exact ⟨m, Table.mem_put_of_ne hm hid, .refl m, rfl, fun _ => rfl⟩
  added m hm hnew := by
    rcases Table.mem_put hm with rfl | ⟨hm, -⟩
    · rw [Table.has_iff.2 ⟨row, hrow, hbecomes.id.symm⟩] at hnew
      cases hnew
    · rw [Table.has_iff.2 ⟨m, hm, rfl⟩] at hnew
      cases hnew

/-- A new live row of the user. -/
theorem edits_insert (hinsert : t.insert? row = some u) (huser : row.userId = userId)
    (hlive : row.live) : Edits userId t u where
  kept m hm := by
    exact ⟨m, (Table.mem_insert? hinsert).2 (Or.inl hm), .refl m, rfl, fun _ => rfl⟩
  added m hm hnew := by
    obtain hm | rfl := (Table.mem_insert? hinsert).1 hm
    · rw [Table.has_iff.2 ⟨m, hm, rfl⟩] at hnew
      cases hnew
    · exact ⟨huser, hlive⟩

end Edits

/-! ## One write -/

/-- A push for a live row of the user. -/
def PushesOwn (userId : UUID) (t : MemoryTable) (c : ClientCall) : Prop :=
  c.pushes = true ∧ ∃ row ∈ t.rows, row.id = c.memoryId ∧ row.userId = userId ∧ row.live

/-- The rows were edited for the user, and the calls made push live rows of the user. -/
structure OwnWrites (userId : UUID) (w w' : World R) : Prop where
  edits : Edits userId w.memories w'.memories
  calls : ∃ made, w'.calls = w.calls ++ made ∧ ∀ c ∈ made, PushesOwn userId w'.memories c

section Writes

variable {userId : UUID} {w w' w'' : World R}

theorem PushesOwn.later {t u : MemoryTable} {c : ClientCall} (h : PushesOwn userId t c)
    (hedits : Edits userId t u) : PushesOwn userId u c := by
  obtain ⟨hpushes, row, hrow, hid, huser, hlive⟩ := h
  obtain ⟨row', hrow', hbecomes, hdeleted, -⟩ := hedits.kept row hrow
  exact ⟨hpushes, row', hrow', hbecomes.id.trans hid, hbecomes.userId.trans huser,
    hdeleted.trans hlive⟩

theorem OwnWrites.refl (w : World R) : OwnWrites userId w w :=
  ⟨.refl _, [], (List.append_nil _).symm, nofun⟩

theorem OwnWrites.trans (h : OwnWrites userId w w') (h' : OwnWrites userId w' w'') :
    OwnWrites userId w w'' := by
  obtain ⟨made, hcalls, hmade⟩ := h.calls
  obtain ⟨made', hcalls', hmade'⟩ := h'.calls
  refine ⟨h.edits.trans h'.edits, made ++ made', ?_, fun c hc => ?_⟩
  · rw [hcalls', hcalls, List.append_assoc]
  · rcases List.mem_append.1 hc with hc | hc
    · exact (hmade c hc).later h'.edits
    · exact hmade' c hc

theorem createMemory_ownWrites (pf : Platform) (client : MemoryClient R) (env : Env)
    (args : CreateArgs) (w : World R) :
    OwnWrites userId w (createMemory pf client env userId args w).2 := by
  have heff := createMemory_effect pf client env userId args w
  generalize (createMemory pf client env userId args w).2 = w' at heff ⊢
  cases heff with
  | unchanged => exact .refl w
  | @created _ _ text memories hcheck hhash hinsert =>
    have hpushed := pushRow_calls client env (newRow pf env userId args text) false w
    have hbecomes := pushRow_becomes client env (newRow pf env userId args text) false w
    have hdeleted := pushRow_deletedAt client env (newRow pf env userId args text) false w
    -- a new row has no remote id, so its push is an `add`
    have hadd : pushRow client env (newRow pf env userId args text) false w =
        sendToSupermemoryAdd client env (newRow pf env userId args text) w := rfl
    rw [hadd] at hpushed hbecomes hdeleted
    obtain ⟨c, hpushes, hid, hcalls⟩ := hpushed
    have hnew : newRow pf env userId args text ∈ memories.rows :=
      (Table.mem_insert? hinsert).2 (Or.inr rfl)
    refine ⟨(edits_insert hinsert rfl rfl).trans (edits_put hnew rfl rfl hbecomes hdeleted), [c],
      hcalls, fun c' hc' => ?_⟩
    obtain rfl := List.mem_singleton.1 hc'
    exact ⟨hpushes, _, Table.mem_put_self hnew hbecomes.id.symm, hbecomes.id.trans hid.symm,
      hbecomes.userId, hdeleted⟩

theorem updateMemory_ownWrites (pf : Platform) (client : MemoryClient R) (env : Env)
    (memoryId : UUID) (args : UpdateArgs) (w : World R) :
    OwnWrites userId w (updateMemory pf client env userId memoryId args w).2 := by
  have heff := updateMemory_effect pf client env userId memoryId args w
  generalize (updateMemory pf client env userId memoryId args w).2 = w' at heff ⊢
  cases heff with
  | unchanged => exact .refl w
  | @updated _ row row' changed memories hrow hlive hpatch hflush =>
    obtain ⟨c, hpushes, hid, hcalls⟩ := pushRow_calls client env row' changed w
    have hpatched := applyPatch_becomes hpatch
    have hbecomes := hpatched.trans (pushRow_becomes client env row' changed w)
    have hdeleted : (pushRow client env row' changed w).1.deletedAt = row.deletedAt := by
      rw [pushRow_deletedAt, applyPatch_deletedAt hpatch]
    have hput : memories.put (pushRow client env row' changed w).1 =
        w.memories.put (pushRow client env row' changed w).1 := by
      rw [flush_ok hflush, Table.put_put (by simp)]
    have hstored : (commitRow memories (pushRow client env row' changed w)).memories =
        w.memories.put (pushRow client env row' changed w).1 := hput
    refine ⟨hstored ▸ edits_put hrow rfl hlive hbecomes hdeleted, [c], hcalls, fun c' hc' => ?_⟩
    obtain rfl := List.mem_singleton.1 hc'
    refine ⟨hpushes, _, ?_, hbecomes.id.trans ?_, hbecomes.userId, hdeleted.trans hlive⟩
    · rw [hstored]
      exact Table.mem_put_self hrow hbecomes.id.symm
    · rw [hid, hpatched.id]

end Writes

/-! ## The whole turn -/

/-- What holds of the store at any point of a turn that began in `w₀`. -/
structure InBounds (pf : Platform) (userId : UUID) (w₀ : World R) (v : AtomicStore R) : Prop where
  writes : OwnWrites userId w₀ v.world
  searches : ∀ call ∈ v.searches, call.containerTag = containerTag userId
  rowsInv : RowsInv pf w₀.memories → RowsInv pf v.world.memories
  syncInv : SyncInv w₀ → SyncInv v.world

/-- A write that keeps the invariants of the rows. -/
theorem InBounds.write {pf : Platform} {userId : UUID} {w₀ w' : World R} {v : AtomicStore R}
    (h : InBounds pf userId w₀ v) (hwrites : OwnWrites userId v.world w')
    (hrows : RowsInv pf v.world.memories → RowsInv pf w'.memories)
    (hsync : SyncInv v.world → SyncInv w') :
    InBounds pf userId w₀ { v with world := w' } where
  writes := h.writes.trans hwrites
  searches := h.searches
  rowsInv h₀ := hrows (h.rowsInv h₀)
  syncInv h₀ := hsync (h.syncInv h₀)

theorem atomicService_keeps (pf : Platform) (sp : SearchPlatform) (client : SearchClient R)
    (userId : UUID) (w₀ : World R) :
    ServiceKeeps userId (InBounds pf userId w₀) (atomicService pf sp client) where
  search q limit v hv := by
    refine ⟨⟨hv.writes.edits, hv.writes.calls⟩, fun call hcall => ?_, hv.rowsInv, hv.syncInv⟩
    rcases List.mem_append.1 hcall with hcall | hcall
    · exact hv.searches call hcall
    · rw [List.mem_singleton.1 hcall]
      rfl
  create env args v hv :=
    hv.write (createMemory_ownWrites pf client.toMemoryClient env args v.world)
      (fun h => rowsInv_handle pf client.toMemoryClient env h (.create userId args))
      fun h => syncInv_handle pf client.toMemoryClient env h (.create userId args)
  update env memoryId args v hv :=
    hv.write (updateMemory_ownWrites pf client.toMemoryClient env memoryId args v.world)
      (fun h => rowsInv_handle pf client.toMemoryClient env h (.update userId memoryId args))
      fun h => syncInv_handle pf client.toMemoryClient env h (.update userId memoryId args)

/-- **A turn stays within its user's live memories.**  Whatever the model answers and the client
does, every committed row is still there with its id, owner and creation time; rows of other users
and tombstones are unchanged, no row is deleted, and new rows are live rows of the user.  The
client is only called to push live rows of the user, never to delete, and is searched in the user's
container only.  Well-formed rows and consistent sync columns stay so. -/
theorem turn_confined (pf : Platform) (sp : SearchPlatform) (client : SearchClient R)
    (setup : TurnSetup L) (input : AgentInput) (w : World R) (llm : L) :
    let store := (sessionTurn pf sp client setup input w llm).state.world.store
    let t := store.db.committed
    (∀ m ∈ w.memories.rows, ∃ m' ∈ t.rows, m.Becomes m' ∧ m'.deletedAt = m.deletedAt ∧
      (m.userId ≠ setup.userId ∨ ¬ m.live → m' = m)) ∧
    (∀ m' ∈ t.rows, w.memories.has m'.id = false → m'.userId = setup.userId ∧ m'.live) ∧
    (∀ c, .call c ∈ store.effects → c.pushes = true ∧
      ∃ row ∈ t.rows, row.id = c.memoryId ∧ row.userId = setup.userId ∧ row.live) ∧
    (∀ call ∈ store.searches, call.containerTag = containerTag setup.userId) ∧
    (RowsInv pf w.memories → RowsInv pf t) ∧
    (SyncInv w → ∀ m ∈ t.rows, m.SyncInv) := by
  intro store t
  obtain ⟨-, -, -, hcommitted⟩ := sessionTurn_alike pf sp client setup input w llm
  have hstart : InBounds pf setup.userId w (⟨w, []⟩ : AtomicStore R) :=
    ⟨.refl w, nofun, id, id⟩
  have hturn :=
    agentTurn_keeps (atomicService_keeps pf sp client setup.userId w) pf input hstart llm
  have hrows : t = (atomicTurn pf sp client setup input w llm).state.world.store.world.memories :=
    hcommitted.committed
  have hcalls : ∀ c, .call c ∈ store.effects → PushesOwn setup.userId t c := by
    intro c hc
    obtain ⟨made, hmade, hown⟩ := hturn.writes.calls
    have heq : made = clientCalls store.effects :=
      List.append_cancel_left (hmade.symm.trans hcommitted.calls)
    rw [hrows]
    exact hown c (heq ▸ List.mem_filterMap.2 ⟨_, hc, rfl⟩)
  have hsearches : store.searches =
      (atomicTurn pf sp client setup input w llm).state.world.store.searches := hcommitted.searches
  refine ⟨?_, ?_, hcalls, ?_, ?_, ?_⟩
  · rw [hrows]
    exact hturn.writes.edits.kept
  · rw [hrows]
    exact hturn.writes.edits.added
  · rw [hsearches]
    exact hturn.searches
  · rw [hrows]
    exact hturn.rowsInv
  · rw [hrows]
    exact hturn.syncInv

end Tools

end MeJournal
