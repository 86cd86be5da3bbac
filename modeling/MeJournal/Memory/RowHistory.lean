import MeJournal.Memory.SyncState

/-!
# The history of a row

Everything a run of requests can do to the `external_*` columns and to `deleted_at`, for every
client and every outcome of its calls.

* `Memory.Consistent` — what the columns say together; `SyncInv` is its inductive form.
* `Memory.Becomes` — what a row keeps: `external_id` once set, `deleted_at` once set.
  `becomes_handle` is one request, `becomes_states` every pair of states of a run.
* `syncMemory_synced` — a `sync_memory` whose client call succeeds leaves the row `synced`.
* `sync_columns_of_run` — all of it together, over every run from the empty table.
-/

namespace MeJournal

variable {R : Type}

/-! ## The columns together -/

/-- The sync columns of a committed row, as a reader of the table may rely on them. -/
structure Memory.Consistent (m : Memory) : Prop where
  synced_iff : m.externalStatus = .synced ↔ m.externalError = none
  synced_sent : m.externalStatus = .synced → m.externalId ≠ none
  unsent_iff : m.externalId = none ↔ m.externalSyncedAt = none
  unsent_status : m.externalId = none → m.externalStatus = .unsynced
  pending : m.externalStatus = .pendingDelete → m.deletedAt ≠ none ∧ m.externalId ≠ none

theorem Memory.SyncInv.sent {m : Memory} (h : m.SyncInv) (hstatus : m.externalStatus ≠ .unsynced) :
    m.externalId ≠ none :=
  fun hext => hstatus (h.unsent hext)

theorem Memory.SyncInv.consistent {m : Memory} (h : m.SyncInv) : m.Consistent where
  synced_iff := h.synced_iff
  synced_sent := fun hsynced => h.sent (by simp [hsynced])
  unsent_iff := h.external_iff
  unsent_status := h.unsent
  pending := fun hpending => ⟨h.pending hpending, h.sent (by simp [hpending])⟩

/-- The branch of `sync_memory` that settles an inconsistent row: `pending_delete` and no
`external_id`. -/
def settlesInconsistent (memories : MemoryTable) : Request → Bool
  | .sync userId memoryId =>
    (findOwned memories userId memoryId).any fun row =>
      row.externalStatus = .pendingDelete && row.externalId.isNone
  | _ => false

/-- Consistent rows never take that branch. -/
theorem settlesInconsistent_eq_false {w : World R} (h : SyncInv w) (req : Request) :
    settlesInconsistent w.memories req = false := by
  cases req with
  | create => rfl
  | update => rfl
  | delete => rfl
  | sync userId memoryId =>
    rw [Bool.eq_false_iff]
    intro hsettles
    obtain ⟨row, hfound, hrow⟩ := (Option.any_eq_true _ _).1 hsettles
    simp only [Bool.and_eq_true, decide_eq_true_eq, Option.isNone_iff_eq_none] at hrow
    obtain ⟨hstatus, hext⟩ := hrow
    have hmem : row ∈ w.memories.rows := (findOwned_eq_some.1 hfound).1
    exact (h row hmem).consistent.pending hstatus |>.2 hext

/-! ## What a row keeps -/

/-- `m'` is the same memory at a later time. -/
structure Memory.Becomes (m m' : Memory) : Prop where
  id : m'.id = m.id
  userId : m'.userId = m.userId
  createdAt : m'.createdAt = m.createdAt
  externalId : ∀ docId, m.externalId = some docId → m'.externalId = some docId
  deletedAt : ∀ at_, m.deletedAt = some at_ → m'.deletedAt = some at_

theorem Memory.Becomes.refl (m : Memory) : m.Becomes m :=
  ⟨rfl, rfl, rfl, fun _ h => h, fun _ h => h⟩

theorem Memory.Becomes.trans {m m' m'' : Memory} (h : m.Becomes m') (h' : m'.Becomes m'') :
    m.Becomes m'' where
  id := h'.id.trans h.id
  userId := h'.userId.trans h.userId
  createdAt := h'.createdAt.trans h.createdAt
  externalId := fun docId hd => h'.externalId docId (h.externalId docId hd)
  deletedAt := fun at_ hat => h'.deletedAt at_ (h.deletedAt at_ hat)

/-- Every row of `t` is still there in `u`. -/
def Kept (t u : MemoryTable) : Prop := ∀ m ∈ t.rows, ∃ m' ∈ u.rows, m.Becomes m'

theorem Kept.refl (t : MemoryTable) : Kept t t := fun m hm => ⟨m, hm, .refl m⟩

theorem Kept.trans {t u v : MemoryTable} (h : Kept t u) (h' : Kept u v) : Kept t v := by
  intro m hm
  obtain ⟨m', hm', hbecomes⟩ := h m hm
  obtain ⟨m'', hm'', hbecomes'⟩ := h' m' hm'
  exact ⟨m'', hm'', hbecomes.trans hbecomes'⟩

/-- Writing what a stored row becomes. -/
theorem kept_put {t : MemoryTable} {row row' : Memory} (hrow : row ∈ t.rows)
    (h : row.Becomes row') : Kept t (t.put row') := by
  intro m hm
  by_cases hid : m.id = row'.id
  · have hsame : m = row := t.eq_of_key_eq hm hrow (hid.trans h.id)
    subst hsame
    exact ⟨row', Table.mem_put_self hm hid, h⟩
  · exact ⟨m, Table.mem_put_of_ne hm hid, .refl m⟩

/-! ## One request -/

theorem pushRow_becomes (client : MemoryClient R) (env : Env) (row : Memory) (changed : Bool)
    (w : World R) : row.Becomes (pushRow client env row changed w).1 := by
  unfold pushRow
  split
  · rename_i hext
    simp only [sendToSupermemoryAdd]
    split <;> exact ⟨rfl, rfl, rfl, by simp [hext], fun _ h => h⟩
  · simp only [sendToSupermemoryPatch]
    split <;> exact ⟨rfl, rfl, rfl, fun _ h => h, fun _ h => h⟩

theorem applyPatch_becomes {pf : Platform} {row row' : Memory} {args : UpdateArgs}
    {changed : Bool} (h : applyPatch pf row args = .ok (row', changed)) : row.Becomes row' := by
  obtain ⟨text, hash, rfl, _, _⟩ := applyPatch_ok h
  exact ⟨rfl, rfl, rfl, fun _ hd => hd, fun _ hat => hat⟩

/-- Deleting a live row. -/
theorem delete_becomes {row : Memory} (hlive : row.live) (at_ : Time) :
    row.Becomes { row with deletedAt := some at_ } := by
  refine ⟨rfl, rfl, rfl, fun _ h => h, fun at' hat => ?_⟩
  rw [hlive] at hat
  cases hat

theorem sendDelete_becomes (client : MemoryClient R) (row : Memory) (docId : String)
    (w : World R) : row.Becomes (sendDelete client row docId w).1 := by
  simp only [sendDelete]
  split <;> exact ⟨rfl, rfl, rfl, fun _ h => h, fun _ h => h⟩

theorem retryDelete_becomes (client : MemoryClient R) (row : Memory) (docId : String)
    (w : World R) : row.Becomes (retryDelete client row docId w).1 := by
  simp only [retryDelete]
  split <;> exact ⟨rfl, rfl, rfl, fun _ h => h, fun _ h => h⟩

/-- **One request keeps every row**, whatever the client does. -/
theorem becomes_handle (pf : Platform) (client : MemoryClient R) (env : Env) (w : World R)
    (req : Request) : Kept w.memories (handle pf client env w req).memories := by
  have heff := request_effect pf client env w req
  generalize handle pf client env w req = w' at heff ⊢
  cases heff with
  | unchanged => exact .refl _
  | created hcheck hhash hinsert =>
    intro m hm
    refine ⟨m, ?_, .refl m⟩
    rw [commitRow_memories, Table.insert?_put_rows hinsert (by simp)]
    exact List.mem_append_left _ hm
  | @updated args row row' changed memories hrow hlive hpatch hflush =>
    have hpushed : row.Becomes (pushRow client env row' changed w).1 :=
      (applyPatch_becomes hpatch).trans (pushRow_becomes client env row' changed w)
    rw [flush_ok hflush, commitRow_memories, Table.put_put (by simp)]
    exact kept_put hrow hpushed
  | deletedLocally hrow hlive hext => exact kept_put hrow (delete_becomes hlive env.now)
  | @deleted row docId hrow hlive hext =>
    exact kept_put hrow ((delete_becomes hlive env.now).trans (sendDelete_becomes client _ docId w))
  | synced hrow hstatus => exact kept_put hrow (pushRow_becomes client env _ true w)
  | settled hrow hstatus hext =>
    exact kept_put hrow ⟨rfl, rfl, rfl, fun _ h => h, fun _ h => h⟩
  | @retried row docId hrow hstatus hext =>
    exact kept_put hrow (retryDelete_becomes client row docId w)

/-- **A row keeps its `external_id` and its `deleted_at`** from any state of a run to any later
one. -/
theorem becomes_states (pf : Platform) (client : MemoryClient R) (w : World R)
    (es : List MemoryEvent) :
    (Runs.states (memoryStep pf client) w es).Pairwise fun w w' =>
      Kept w.memories w'.memories := by
  have hstep : ∀ (w : World R) (e : MemoryEvent),
      Kept w.memories (memoryStep pf client w e).memories :=
    fun w e => becomes_handle pf client e.env w e.req
  exact Runs.pairwise_states hstep (fun w => .refl w.memories) (fun _ _ _ h h' => h.trans h') w es

/-! ## A sync that reaches the client -/

/-- The client accepts the call, made on the remote state `remote`. -/
def ClientCall.accepted (client : MemoryClient R) (remote : R) : ClientCall → Bool
  | .add memoryId content tags metadata =>
    (client.add remote memoryId content tags metadata).1.isOk
  | .patch _ docId content metadata => (client.patch remote docId content metadata).1.isOk
  | .delete _ docId => (client.delete remote docId).1.isOk

/-- The row of the memory, if it is stored with status `synced`. -/
def storedSynced (memories : MemoryTable) (memoryId : UUID) : Bool :=
  (memories.find memoryId).any fun row => row.externalStatus = .synced

/-- A push makes one call; when the client accepts it the row is `synced`. -/
theorem pushRow_accepted (client : MemoryClient R) (env : Env) (row : Memory) (changed : Bool)
    (w : World R) :
    ∃ c : ClientCall, (pushRow client env row changed w).2.calls = w.calls ++ [c] ∧
      (c.accepted client w.remote = true →
        (pushRow client env row changed w).1.externalStatus = .synced) := by
  unfold pushRow
  split
  · refine ⟨_, sendToSupermemoryAdd_calls .., fun haccepted => ?_⟩
    simp only [ClientCall.accepted] at haccepted
    simp only [sendToSupermemoryAdd]
    split
    · rename_i err herr
      rw [herr] at haccepted
      cases haccepted
    · rfl
  · refine ⟨_, sendToSupermemoryPatch_calls .., fun haccepted => ?_⟩
    simp only [ClientCall.accepted] at haccepted
    simp only [sendToSupermemoryPatch]
    split
    · rename_i err herr
      rw [herr] at haccepted
      cases haccepted
    · rfl

theorem retryDelete_accepted {client : MemoryClient R} {row : Memory} {docId : String}
    {w : World R} (h : (ClientCall.delete row.id docId).accepted client w.remote = true) :
    (retryDelete client row docId w).1.externalStatus = .synced := by
  simp only [ClientCall.accepted] at h
  simp only [retryDelete]
  split
  · rename_i err herr
    rw [herr] at h
    cases h
  · rfl

theorem storedSynced_put {t : MemoryTable} {row row' : Memory} (hrow : row ∈ t.rows)
    (hid : row'.id = row.id) (hstatus : row'.externalStatus = .synced) :
    storedSynced (t.put row') row.id = true := by
  have hfind : (t.put row').find row.id = some row' :=
    Table.find_eq_some.2 ⟨Table.mem_put_self hrow hid.symm, hid⟩
  simp [storedSynced, hfind, hstatus]

/-- **A `sync_memory` whose client call succeeds leaves the row `synced`.** -/
theorem syncMemory_synced (pf : Platform) (client : MemoryClient R) (env : Env) (w : World R)
    {userId memoryId : UUID} {c : ClientCall}
    (hc : c ∈ issued w (handle pf client env w (.sync userId memoryId)))
    (haccepted : c.accepted client w.remote = true) :
    storedSynced (handle pf client env w (.sync userId memoryId)).memories memoryId = true := by
  have heff := request_effect pf client env w (.sync userId memoryId)
  generalize handle pf client env w (.sync userId memoryId) = w' at heff hc ⊢
  cases heff with
  | unchanged => simp [issued] at hc
  | @synced row hrow hstatus =>
    obtain ⟨c', hcalls, hsynced⟩ := pushRow_accepted client env row true w
    cases mem_issued hcalls hc
    exact storedSynced_put hrow (by simp) (hsynced haccepted)
  | settled hrow hstatus hext => simp [issued] at hc
  | @retried row docId hrow hstatus hext =>
    cases mem_issued (retryDelete_calls ..) hc
    exact storedSynced_put hrow (by simp) (retryDelete_accepted haccepted)

/-! ## Runs -/

/-- **The sync columns over a whole run**, from the empty table, for every client: committed
rows are consistent and the inconsistent branch of `sync_memory` is never taken; a row keeps its
`external_id` and `deleted_at`; a sync whose client call succeeds leaves its row `synced`. -/
theorem sync_columns_of_run (pf : Platform) (client : MemoryClient R) (remote : R)
    (es : List MemoryEvent) :
    (∀ w ∈ Runs.states (memoryStep pf client) (initialWorld remote) es,
      (∀ m ∈ w.memories.rows, m.Consistent) ∧ ∀ req, settlesInconsistent w.memories req = false) ∧
    ((Runs.states (memoryStep pf client) (initialWorld remote) es).Pairwise fun w w' =>
      Kept w.memories w'.memories) ∧
    ∀ p ∈ Runs.steps (memoryStep pf client) (initialWorld remote) es, ∀ userId memoryId,
      p.2.req = .sync userId memoryId →
      (issued p.1 (memoryStep pf client p.1 p.2)).any (·.accepted client p.1.remote) = true →
        storedSynced (memoryStep pf client p.1 p.2).memories memoryId = true := by
  refine ⟨fun w hw => ?_, becomes_states pf client _ es, ?_⟩
  · have hinv : SyncInv w := syncInv_states pf client remote es w hw
    exact ⟨fun m hm => (hinv m hm).consistent, settlesInconsistent_eq_false hinv⟩
  · rintro ⟨w, env, req⟩ _ userId memoryId rfl hany
    obtain ⟨c, hc, haccepted⟩ := List.any_eq_true.1 hany
    exact syncMemory_synced pf client env w hc haccepted

end MeJournal
