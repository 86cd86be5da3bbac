import MeJournal.Lib.Runs
import MeJournal.Memory.Service

/-!
# The sync columns of a row, and deleted rows

* `SyncInv` — what the `external_*` columns of a committed row satisfy whatever the remote
  client does; `syncInv_handle` keeps it over one request, `syncInv_states` over every run.
* `deleted_states` — a deleted memory stays deleted.
* `no_push_after_delete_iff` — a run never issues `client.add` or `client.patch` for a memory
  that is already deleted exactly when no `sync_memory` of the run addresses a tombstone that
  is still `unsynced`.
-/

namespace MeJournal

variable {R : Type}

/-- The sync columns of a committed row. -/
structure Memory.SyncInv (m : Memory) : Prop where
  synced_iff : m.externalStatus = .synced ↔ m.externalError = none
  external_iff : m.externalId = none ↔ m.externalSyncedAt = none
  unsent : m.externalId = none → m.externalStatus = .unsynced
  pending : m.externalStatus = .pendingDelete → m.deletedAt ≠ none
  tombstone : m.deletedAt ≠ none → m.externalStatus = .unsynced → m.externalId = none

def SyncInv (w : World R) : Prop := ∀ m ∈ w.memories.rows, m.SyncInv

/-! ## One request -/

theorem sendToSupermemoryAdd_syncInv (client : MemoryClient R) (env : Env) {row : Memory}
    (w : World R) (hext : row.externalId = none) (hat : row.externalSyncedAt = none) :
    (sendToSupermemoryAdd client env row w).1.SyncInv := by
  simp only [sendToSupermemoryAdd]
  split <;> constructor <;> simp [hext, hat]

theorem sendToSupermemoryPatch_syncInv (client : MemoryClient R) (env : Env) {row : Memory}
    {docId : String} (changed : Bool) (w : World R) (hext : row.externalId = some docId)
    (hat : row.externalSyncedAt ≠ none) (hlive : row.live) :
    (sendToSupermemoryPatch client env row docId changed w).1.SyncInv := by
  simp only [sendToSupermemoryPatch]
  split <;> constructor <;> simp [hext, hat, hlive]

theorem pushRow_syncInv (client : MemoryClient R) (env : Env) {row : Memory} (changed : Bool)
    (w : World R) (hext : row.externalId = none ↔ row.externalSyncedAt = none)
    (hlive : row.externalId ≠ none → row.live) :
    (pushRow client env row changed w).1.SyncInv := by
  unfold pushRow
  split
  · rename_i hnone
    exact sendToSupermemoryAdd_syncInv client env w hnone (hext.1 hnone)
  · rename_i docId hsome
    have hne : row.externalId ≠ none := by simp [hsome]
    exact sendToSupermemoryPatch_syncInv client env changed w hsome (fun h => hne (hext.2 h))
      (hlive hne)

theorem syncInv_put {w : World R} (h : SyncInv w) {p : Memory × World R} (hp : p.1.SyncInv) :
    SyncInv (commitRow w.memories p) := by
  intro m hm
  rcases Table.mem_put hm with rfl | ⟨hm, _⟩
  · exact hp
  · exact h m hm

/-- **One request keeps the sync columns consistent**, for every client. -/
theorem syncInv_handle (pf : Platform) (client : MemoryClient R) (env : Env) {w : World R}
    (h : SyncInv w) (req : Request) : SyncInv (handle pf client env w req) := by
  have heff := request_effect pf client env w req
  generalize handle pf client env w req = w' at heff ⊢
  cases heff with
  | unchanged => exact h
  | created hcheck hhash hinsert =>
    intro m hm
    rw [commitRow_memories, Table.insert?_put_rows hinsert (by simp)] at hm
    rcases List.mem_append.1 hm with hm | hm
    · exact h m hm
    · rw [List.mem_singleton.1 hm]
      exact sendToSupermemoryAdd_syncInv client env w rfl rfl
  | @updated args row row' changed memories hrow hlive hpatch hflush =>
    obtain ⟨text, hash, rfl, _, _⟩ := applyPatch_ok hpatch
    rw [flush_ok hflush]
    intro m hm
    rw [commitRow_memories, Table.put_put (by simp)] at hm
    rcases Table.mem_put hm with rfl | ⟨hm, _⟩
    · exact pushRow_syncInv client env changed w (h row hrow).external_iff fun _ => hlive
    · exact h m hm
  | deletedLocally hrow hlive hext =>
    have hi := h _ hrow
    exact syncInv_put h ⟨hi.synced_iff, hi.external_iff, hi.unsent, by simp, fun _ _ => hext⟩
  | @deleted row docId hrow hlive hext =>
    have hi := h _ hrow
    have hat : row.externalSyncedAt ≠ none := fun hat => by
      simp [hi.external_iff.2 hat] at hext
    refine syncInv_put h ?_
    simp only [sendDelete]
    split <;> constructor <;> simp [hext, hat]
  | @synced row hrow hstatus =>
    have hi := h _ hrow
    refine syncInv_put h (pushRow_syncInv client env true w hi.external_iff fun hne => ?_)
    by_contra hdel
    exact hne (hi.tombstone hdel hstatus)
  | settled hrow hstatus hext =>
    have hi := h _ hrow
    rw [hi.unsent hext] at hstatus
    cases hstatus
  | @retried row docId hrow hstatus hext =>
    have hi := h _ hrow
    have hat : row.externalSyncedAt ≠ none := fun hat => by
      simp [hi.external_iff.2 hat] at hext
    have hdel := hi.pending hstatus
    refine syncInv_put h ?_
    simp only [retryDelete]
    split <;> constructor <;> simp [hext, hat, hstatus, hdel]

/-! ## Runs -/

/-- One request, with what it reads from outside. -/
structure MemoryEvent where
  env : Env
  req : Request

def memoryStep (pf : Platform) (client : MemoryClient R) (w : World R) (e : MemoryEvent) :
    World R :=
  handle pf client e.env w e.req

/-- Before any request. -/
def initialWorld (remote : R) : World R := ⟨Table.empty, remote, []⟩

theorem syncInv_initial (remote : R) : SyncInv (initialWorld remote) := by
  intro m hm
  cases hm

/-- **Every reachable row has consistent sync columns.** -/
theorem syncInv_states (pf : Platform) (client : MemoryClient R) (remote : R)
    (es : List MemoryEvent) :
    ∀ w ∈ Runs.states (memoryStep pf client) (initialWorld remote) es, SyncInv w := by
  have hstep : ∀ w e, SyncInv w → SyncInv (memoryStep pf client w e) :=
    fun _ e h => syncInv_handle pf client e.env h e.req
  exact Runs.inv_states hstep (syncInv_initial remote) es

/-! ## Deleted memories -/

/-- The memory exists and its `deleted_at` is set. -/
def deleted (memories : MemoryTable) (id : UUID) : Bool :=
  memories.rows.any fun m => m.id = id && m.deletedAt.isSome

theorem deleted_iff {memories : MemoryTable} {id : UUID} :
    deleted memories id = true ↔ ∃ m ∈ memories.rows, m.id = id ∧ ¬ m.live := by
  simp [deleted, Option.isSome_iff_ne_none]

/-- A live row's memory is not deleted. -/
theorem deleted_of_live {memories : MemoryTable} {m : Memory} (hm : m ∈ memories.rows)
    (hlive : m.live) : deleted memories m.id = false := by
  rw [Bool.eq_false_iff]
  intro hdel
  obtain ⟨m', hm', hid, hdead⟩ := deleted_iff.1 hdel
  rw [memories.eq_of_key_eq hm' hm hid] at hdead
  exact hdead hlive

theorem deleted_put {memories : MemoryTable} {m m' : Memory} {id : UUID}
    (hm : m ∈ memories.rows) (hid : m'.id = m.id) (hdead : ¬ m.live → ¬ m'.live)
    (h : deleted memories id = true) : deleted (memories.put m') id = true := by
  obtain ⟨d, hd, rfl, hdel⟩ := deleted_iff.1 h
  by_cases hkey : d.id = m'.id
  · rw [memories.eq_of_key_eq hd hm (hkey.trans hid)] at hdel
    exact deleted_iff.2 ⟨m', Table.mem_put_self hd hkey, hkey.symm, hdead hdel⟩
  · exact deleted_iff.2 ⟨d, Table.mem_put_of_ne hd hkey, rfl, hdel⟩

@[simp] theorem sendToSupermemoryAdd_deletedAt (client : MemoryClient R) (env : Env)
    (row : Memory) (w : World R) :
    (sendToSupermemoryAdd client env row w).1.deletedAt = row.deletedAt := by
  simp only [sendToSupermemoryAdd]; split <;> rfl

@[simp] theorem pushRow_deletedAt (client : MemoryClient R) (env : Env) (row : Memory)
    (changed : Bool) (w : World R) :
    (pushRow client env row changed w).1.deletedAt = row.deletedAt := by
  unfold pushRow
  split
  · simp
  · simp only [sendToSupermemoryPatch]; split <;> rfl

@[simp] theorem sendDelete_deletedAt (client : MemoryClient R) (row : Memory) (docId : String)
    (w : World R) : (sendDelete client row docId w).1.deletedAt = row.deletedAt := by
  simp only [sendDelete]; split <;> rfl

@[simp] theorem retryDelete_deletedAt (client : MemoryClient R) (row : Memory) (docId : String)
    (w : World R) : (retryDelete client row docId w).1.deletedAt = row.deletedAt := by
  simp only [retryDelete]; split <;> rfl

/-- A request revives no memory. -/
theorem deleted_handle (pf : Platform) (client : MemoryClient R) (env : Env) {w : World R}
    {id : UUID} (h : deleted w.memories id = true) (req : Request) :
    deleted (handle pf client env w req).memories id = true := by
  have heff := request_effect pf client env w req
  generalize handle pf client env w req = w' at heff ⊢
  cases heff with
  | unchanged => exact h
  | created hcheck hhash hinsert =>
    obtain ⟨d, hd, hid, hdel⟩ := deleted_iff.1 h
    rw [commitRow_memories, deleted_iff, Table.insert?_put_rows hinsert (by simp)]
    exact ⟨d, List.mem_append_left _ hd, hid, hdel⟩
  | updated hrow hlive hpatch hflush =>
    obtain ⟨text, hash, rfl, _, _⟩ := applyPatch_ok hpatch
    rw [flush_ok hflush, commitRow_memories, Table.put_put (by simp)]
    exact deleted_put hrow (by simp [patchColumns]) (fun hdead => absurd hlive hdead) h
  | deletedLocally hrow hlive hext => exact deleted_put hrow rfl (by simp) h
  | deleted hrow hlive hext => exact deleted_put hrow (by simp) (by simp) h
  | synced hrow hstatus => exact deleted_put hrow (by simp) (by simp) h
  | settled hrow hstatus hext => exact deleted_put hrow rfl (fun hdead => hdead) h
  | retried hrow hstatus hext => exact deleted_put hrow (by simp) (by simp) h

/-- **A deleted memory stays deleted** through the rest of the run. -/
theorem deleted_states (pf : Platform) (client : MemoryClient R) {w : World R} {id : UUID}
    (h : deleted w.memories id = true) (es : List MemoryEvent) :
    ∀ w' ∈ Runs.states (memoryStep pf client) w es, deleted w'.memories id = true := by
  have hstep : ∀ (w : World R) (e : MemoryEvent), deleted w.memories id = true →
      deleted (memoryStep pf client w e).memories id = true :=
    fun _ e hw => deleted_handle pf client e.env hw e.req
  exact Runs.inv_states hstep h es

/-! ## Pushes after a delete -/

/-- The client calls between two worlds of a run. -/
def issued (w w' : World R) : List ClientCall := w'.calls.drop w.calls.length

/-- The request pushes a memory that was deleted before the request came in. -/
def pushesDeleted (pf : Platform) (client : MemoryClient R) (w : World R) (e : MemoryEvent) :
    Bool :=
  (issued w (memoryStep pf client w e)).any fun c => c.pushes && deleted w.memories c.memoryId

/-- A `sync_memory` of an owned tombstone whose status is still `unsynced`. -/
def syncsUnsyncedTombstone (w : World R) : Request → Bool
  | .sync userId memoryId =>
    (findOwned w.memories userId memoryId).any fun row =>
      row.deletedAt.isSome && row.externalStatus = .unsynced
  | _ => false

/-- The one call of a push is for the pushed row. -/
theorem pushRow_calls (client : MemoryClient R) (env : Env) (row : Memory) (changed : Bool)
    (w : World R) :
    ∃ c : ClientCall, c.pushes = true ∧ c.memoryId = row.id ∧
      (pushRow client env row changed w).2.calls = w.calls ++ [c] := by
  unfold pushRow
  split
  · exact ⟨_, rfl, rfl, sendToSupermemoryAdd_calls ..⟩
  · exact ⟨_, rfl, rfl, sendToSupermemoryPatch_calls ..⟩

theorem issued_append {w w' : World R} {c : ClientCall} (h : w'.calls = w.calls ++ [c]) :
    issued w w' = [c] := by
  simp [issued, h]

theorem mem_issued {w : World R} {memories : MemoryTable} {p : Memory × World R}
    {c c' : ClientCall} (h : p.2.calls = w.calls ++ [c'])
    (hc : c ∈ issued w (commitRow memories p)) : c = c' := by
  have hcalls : (commitRow memories p).calls = w.calls ++ [c'] := h
  rw [issued_append hcalls] at hc
  exact List.mem_singleton.1 hc

/-- A sync of an unsynced tombstone pushes it. -/
theorem pushesDeleted_of_sync (pf : Platform) (client : MemoryClient R) (env : Env) {w : World R}
    {row : Memory} (hrow : row ∈ w.memories.rows) (hdead : ¬ row.live)
    (hstatus : row.externalStatus = .unsynced) :
    pushesDeleted pf client w ⟨env, .sync row.userId row.id⟩ = true := by
  have hfound : findOwned w.memories row.userId row.id = some row :=
    findOwned_eq_some.2 ⟨hrow, rfl, rfl⟩
  obtain ⟨c, hpush, hid, hcalls⟩ := pushRow_calls client env row true w
  have hissued : issued w (memoryStep pf client w ⟨env, .sync row.userId row.id⟩) = [c] := by
    refine issued_append ?_
    simp only [memoryStep, handle, syncMemory, hfound, hstatus]
    exact hcalls
  rw [pushesDeleted, hissued]
  have hdel : deleted w.memories row.id = true := deleted_iff.2 ⟨row, hrow, rfl, hdead⟩
  simp [hpush, hid, hdel]

/-- Nothing else pushes a deleted memory. -/
theorem syncsUnsyncedTombstone_of_push {pf : Platform} {client : MemoryClient R} {w : World R}
    {e : MemoryEvent} (h : pushesDeleted pf client w e = true) :
    ∃ row ∈ w.memories.rows, e.req = .sync row.userId row.id ∧ ¬ row.live ∧
      row.externalStatus = .unsynced := by
  obtain ⟨env, req⟩ := e
  obtain ⟨c, hc, hdel⟩ := List.any_eq_true.1 h
  rw [Bool.and_eq_true] at hdel
  obtain ⟨hpush, hdel⟩ := hdel
  have heff := request_effect pf client env w req
  simp only [memoryStep] at hc
  generalize handle pf client env w req = w' at heff hc
  cases heff with
  | unchanged => simp [issued] at hc
  | created hcheck hhash hinsert =>
    cases mem_issued (sendToSupermemoryAdd_calls ..) hc
    obtain ⟨d, hd, hid, _⟩ := deleted_iff.1 hdel
    exact absurd hid ((Table.insert?_eq_some.1 hinsert).1 d hd)
  | @updated args row row' changed memories hrow hlive hpatch hflush =>
    obtain ⟨c', _, hid, hcalls⟩ := pushRow_calls client env row' changed w
    cases mem_issued hcalls hc
    obtain ⟨text, hash, rfl, _, _⟩ := applyPatch_ok hpatch
    rw [hid] at hdel
    simp [patchColumns, deleted_of_live hrow hlive] at hdel
  | deletedLocally hrow hlive hext => simp [issued] at hc
  | deleted hrow hlive hext =>
    cases mem_issued (sendDelete_calls ..) hc
    cases hpush
  | @synced row hrow hstatus =>
    obtain ⟨c', _, hid, hcalls⟩ := pushRow_calls client env row true w
    cases mem_issued hcalls hc
    refine ⟨row, hrow, rfl, fun hlive => ?_, hstatus⟩
    rw [hid, deleted_of_live hrow hlive] at hdel
    cases hdel
  | settled hrow hstatus hext => simp [issued] at hc
  | retried hrow hstatus hext =>
    cases mem_issued (retryDelete_calls ..) hc
    cases hpush

/-- **One request** pushes a deleted memory exactly when it syncs an unsynced tombstone. -/
theorem pushesDeleted_iff (pf : Platform) (client : MemoryClient R) (w : World R)
    (e : MemoryEvent) :
    pushesDeleted pf client w e = true ↔ syncsUnsyncedTombstone w e.req = true := by
  constructor
  · intro h
    obtain ⟨row, hrow, hreq, hdead, hstatus⟩ := syncsUnsyncedTombstone_of_push h
    have hfound : findOwned w.memories row.userId row.id = some row :=
      findOwned_eq_some.2 ⟨hrow, rfl, rfl⟩
    simpa [hreq, syncsUnsyncedTombstone, hfound, hstatus, Option.isSome_iff_ne_none] using hdead
  · intro h
    obtain ⟨env, req⟩ := e
    cases req with
    | create => cases h
    | update => cases h
    | delete => cases h
    | sync userId memoryId =>
      obtain ⟨row, hfound, hrow⟩ := (Option.any_eq_true _ _).1 h
      obtain ⟨hmem, rfl, rfl⟩ := findOwned_eq_some.1 hfound
      simp only [Bool.and_eq_true, decide_eq_true_eq] at hrow
      have hdead : ¬ row.live := by simpa [Option.isSome_iff_ne_none] using hrow.1
      exact pushesDeleted_of_sync pf client env hmem hdead hrow.2

/-- No step of the run pushes a memory that is deleted when the step starts. -/
def NoPushAfterDelete (pf : Platform) (client : MemoryClient R) (w : World R)
    (es : List MemoryEvent) : Prop :=
  ∀ p ∈ Runs.steps (memoryStep pf client) w es, pushesDeleted pf client p.1 p.2 = false

instance (pf : Platform) (client : MemoryClient R) (w : World R) (es : List MemoryEvent) :
    Decidable (NoPushAfterDelete pf client w es) :=
  inferInstanceAs (Decidable (∀ p ∈ Runs.steps (memoryStep pf client) w es, _))

/-- **A deleted memory is never pushed again, exactly when** no request of the run syncs a
tombstone that is still `unsynced`. -/
theorem no_push_after_delete_iff (pf : Platform) (client : MemoryClient R) (w : World R)
    (es : List MemoryEvent) :
    NoPushAfterDelete pf client w es ↔
      ∀ p ∈ Runs.steps (memoryStep pf client) w es,
        syncsUnsyncedTombstone p.1 p.2.req = false := by
  unfold NoPushAfterDelete
  refine forall₂_congr fun p _ => ?_
  rw [← Bool.not_eq_true, ← Bool.not_eq_true, pushesDeleted_iff]

/-- A memory whose `add` failed is deleted and then synced: the delete leaves it `unsynced`,
and the sync pushes its text. -/
theorem sync_pushes_deleted_memory :
    ¬ NoPushAfterDelete utcPlatform backend (initialWorld ⟨fun _ => none, .err .transient⟩)
      [⟨⟨0, 0, 1⟩,
        .create 7 ⟨"ran".toList, sampleDate, "UTC".toList, none, none, none, none, none⟩⟩,
        ⟨⟨0, 0, 1⟩, .delete 7 1⟩, ⟨⟨0, 0, 1⟩, .sync 7 1⟩] := by
  decide

end MeJournal
