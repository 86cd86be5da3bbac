import MeJournal.Memory.SyncState

/-!
# Local writes do not depend on the remote index

Erase from every row the columns the remote client has a say in.  What is left, and what the
requests return or raise, is the same for every client and every outcome of its calls: it is
what the service does over `offline`, the client whose every call fails.

* `answer_erase` — one request over any client looks like the same request over `offline`.
* `local_writes_of_runs` — two runs of the same requests over any two clients agree.
-/

namespace MeJournal

variable {R R' : Type}

/-! ## Requests with their replies -/

/-- What a request returns (`delete_memory` returns nothing) or raises. -/
abbrev Reply := Except ServiceError (Option Memory)

/-- One request: its reply and the world after it. -/
def answer (pf : Platform) (client : MemoryClient R) (env : Env) (w : World R) :
    Request → Reply × World R
  | .create userId args =>
    let (reply, w') := createMemory pf client env userId args w
    (reply.map some, w')
  | .update userId memoryId args =>
    let (reply, w') := updateMemory pf client env userId memoryId args w
    (reply.map some, w')
  | .delete userId memoryId =>
    let (reply, w') := deleteMemory client env userId memoryId w
    (reply.map fun _ => none, w')
  | .sync userId memoryId =>
    let (reply, w') := syncMemory client env userId memoryId w
    (reply.map some, w')

theorem answer_world (pf : Platform) (client : MemoryClient R) (env : Env) (w : World R)
    (req : Request) : (answer pf client env w req).2 = handle pf client env w req := by
  cases req <;> rfl

/-- The replies of a run. -/
def replies (pf : Platform) (client : MemoryClient R) (w : World R) (es : List MemoryEvent) :
    List Reply :=
  (Runs.steps (memoryStep pf client) w es).map fun p => (answer pf client p.2.env p.1 p.2.req).1

/-! ## Erasure -/

/-- The row without its `external_*` columns. -/
def Memory.erase (m : Memory) : Memory :=
  { m with
    externalId := none, externalStatus := .unsynced, externalSyncedAt := none,
    externalError := none }

@[simp] theorem Memory.erase_id (m : Memory) : m.erase.id = m.id := rfl

def eraseTable (t : MemoryTable) : MemoryTable := t.mapRows Memory.erase Memory.erase_id

def eraseReply (reply : Reply) : Reply := reply.map (Option.map Memory.erase)

/-- What is left of a request's outcome. -/
def eraseOutcome (p : Reply × World R) : Reply × MemoryTable :=
  (eraseReply p.1, eraseTable p.2.memories)

/-- The client whose every call fails. -/
def offline : MemoryClient Unit where
  add r _ _ _ _ := (.error .base, r)
  patch r _ _ _ := (.error .base, r)
  delete r _ := (.error .base, r)

/-- The rows of `w` without the `external_*` columns, in front of `offline`. -/
def World.erase (w : World R) : World Unit := ⟨eraseTable w.memories, (), []⟩

@[simp] theorem Memory.erase_erase (m : Memory) : m.erase.erase = m.erase := rfl

@[simp] theorem eraseTable_eraseTable (t : MemoryTable) :
    eraseTable (eraseTable t) = eraseTable t := by
  apply Table.ext
  simp [eraseTable, Function.comp_def]

@[simp] theorem eraseTable_put (t : MemoryTable) (row : Memory) :
    eraseTable (t.put row) = (eraseTable t).put row.erase :=
  Table.put_mapRows t Memory.erase Memory.erase_id row

@[simp] theorem World.erase_memories (w : World R) : w.erase.memories = eraseTable w.memories :=
  rfl

/-! ## The parts of a request -/

theorem findOwned_erase (t : MemoryTable) (userId memoryId : UUID) :
    findOwned (eraseTable t) userId memoryId = (findOwned t userId memoryId).map Memory.erase := by
  rw [findOwned, eraseTable, Table.find_mapRows, Option.filter_map]
  rfl

theorem findByHash_erase (t : MemoryTable) (userId : UUID) (digest : Digest) :
    findByHash (eraseTable t) userId digest = (findByHash t userId digest).map Memory.erase := by
  rw [findByHash, eraseTable, Table.mapRows_rows, List.find?_map]
  rfl

theorem insertOnConflictDoNothing_erase (pf : Platform) (t : MemoryTable) (row : Memory) :
    insertOnConflictDoNothing pf (eraseTable t) row.erase =
      (insertOnConflictDoNothing pf t row).map (Option.map eraseTable) := by
  have hfind : (findByHash (eraseTable t) row.erase.userId row.erase.contentHash).isSome =
      (findByHash t row.userId row.contentHash).isSome := by
    rw [findByHash_erase, Option.isSome_map]
    rfl
  have hinsert : (eraseTable t).insert? row.erase = (t.insert? row).map eraseTable :=
    Table.insert?_mapRows t Memory.erase Memory.erase_id row
  have hlat : row.erase.locationLat = row.locationLat := rfl
  have hlng : row.erase.locationLng = row.locationLng := rfl
  have hrefused : row.erase.refused pf = row.refused pf := rfl
  unfold insertOnConflictDoNothing
  rw [hfind, hinsert, hlat, hlng, hrefused]
  split
  · rfl
  split
  · rfl
  split
  · rfl
  cases t.insert? row <;> rfl

theorem patchText_erase (pf : Platform) (row : Memory) (text : Patch Text) :
    patchText pf row.erase text =
      (patchText pf row text).map fun p => (p.1.erase, p.2) := by
  cases text with
  | unset => rfl
  | set text =>
    have htext : row.erase.text = row.text := rfl
    simp only [patchText, htext]
    split
    · rfl
    split <;> rfl

theorem applyPatch_erase (pf : Platform) (row : Memory) (args : UpdateArgs) :
    applyPatch pf row.erase args =
      (applyPatch pf row args).map fun p => (p.1.erase, p.2) := by
  have hcheck : checkUpdate pf row.erase args = checkUpdate pf row args := rfl
  simp only [applyPatch, hcheck, patchText_erase]
  cases checkUpdate pf row args with
  | error e => rfl
  | ok u =>
    cases patchText pf row args.text with
    | error e => rfl
    | ok p => rfl

theorem flush_erase (pf : Platform) (t : MemoryTable) (row : Memory) :
    flush pf (eraseTable t) row.erase = (flush pf t row).map eraseTable := by
  have hany : ((eraseTable t).rows.any fun other =>
      other.id != row.erase.id && other.userId = row.erase.userId &&
        other.contentHash = row.erase.contentHash && other.deletedAt.isNone) =
      t.rows.any fun other =>
        other.id != row.id && other.userId = row.userId && other.contentHash = row.contentHash &&
          other.deletedAt.isNone := by
    rw [eraseTable, Table.mapRows_rows, List.any_map]
    rfl
  have hlat : row.erase.locationLat = row.locationLat := rfl
  have hlng : row.erase.locationLng = row.locationLng := rfl
  have hrefused : row.erase.refused pf = row.refused pf := rfl
  unfold flush
  rw [hany, hlat, hlng, hrefused]
  split
  · rfl
  split
  · rfl
  split
  · rfl
  · exact congrArg Except.ok (eraseTable_put t row).symm

/-- A client call changes the `external_*` columns only. -/
@[simp] theorem sendToSupermemoryAdd_erase (client : MemoryClient R) (env : Env) (row : Memory)
    (w : World R) : (sendToSupermemoryAdd client env row w).1.erase = row.erase := by
  simp only [sendToSupermemoryAdd]
  split <;> rfl

@[simp] theorem pushRow_erase (client : MemoryClient R) (env : Env) (row : Memory)
    (changed : Bool) (w : World R) : (pushRow client env row changed w).1.erase = row.erase := by
  unfold pushRow
  split
  · exact sendToSupermemoryAdd_erase client env row w
  · simp only [sendToSupermemoryPatch]
    split <;> rfl

@[simp] theorem sendDelete_erase (client : MemoryClient R) (row : Memory) (docId : String)
    (w : World R) : (sendDelete client row docId w).1.erase = row.erase := by
  simp only [sendDelete]
  split <;> rfl

@[simp] theorem retryDelete_erase (client : MemoryClient R) (row : Memory) (docId : String)
    (w : World R) : (retryDelete client row docId w).1.erase = row.erase := by
  simp only [retryDelete]
  split <;> rfl

/-! ## One request -/

/-- A request that raises. -/
theorem eraseOutcome_raised (e : ServiceError) (w : World R) :
    eraseOutcome ((.error e, w) : Reply × World R) = eraseOutcome (.error e, w.erase) := by
  simp [eraseOutcome, eraseReply, Except.map]

/-- A request that returns without writing. -/
theorem eraseOutcome_returned (row : Option Memory) (w : World R) :
    eraseOutcome ((.ok row, w) : Reply × World R) =
      eraseOutcome (.ok (row.map Memory.erase), w.erase) := by
  cases row <;> simp [eraseOutcome, eraseReply, Except.map]

/-- A request that writes a row and returns it. -/
theorem eraseOutcome_written {p : Memory × World R} {q : Memory × World R'} {t : MemoryTable}
    (h : p.1.erase = q.1.erase) :
    eraseOutcome ((.ok (some p.1), commitRow t p) : Reply × World R) =
      eraseOutcome (.ok (some q.1), commitRow (eraseTable t) q) := by
  simp [eraseOutcome, eraseReply, Except.map, h]

/-- A request that writes a row and returns nothing. -/
theorem eraseOutcome_written_none {p : Memory × World R} {q : Memory × World R'} {t : MemoryTable}
    (h : p.1.erase = q.1.erase) :
    eraseOutcome ((.ok none, commitRow t p) : Reply × World R) =
      eraseOutcome (.ok none, commitRow (eraseTable t) q) := by
  simp [eraseOutcome, eraseReply, Except.map, h]

theorem createMemory_erase (pf : Platform) (client : MemoryClient R) (env : Env) (w : World R)
    (userId : UUID) (args : CreateArgs) :
    eraseOutcome (answer pf client env w (.create userId args)) =
      eraseOutcome (answer pf offline env w.erase (.create userId args)) := by
  have howned : args.idempotencyId.bind (findOwned w.erase.memories userId) =
      (args.idempotencyId.bind (findOwned w.memories userId)).map Memory.erase := by
    cases args.idempotencyId with
    | none => rfl
    | some id => exact findOwned_erase w.memories userId id
  simp only [answer, createMemory, howned]
  cases checkCreate pf args with
  | error e => exact eraseOutcome_raised e w
  | ok text =>
    cases args.idempotencyId.bind (findOwned w.memories userId) with
    | some existing =>
      have hsame : existing.erase.deletedAt = existing.deletedAt := rfl
      simp only [Option.map_some]
      by_cases hdead : existing.deletedAt.isSome = true
      · rw [if_pos hdead, if_pos (hsame ▸ hdead)]
        exact eraseOutcome_raised _ w
      · rw [if_neg hdead, if_neg (hsame ▸ hdead)]
        exact eraseOutcome_returned (some existing) w
    | none =>
      have hinsert := insertOnConflictDoNothing_erase pf w.memories (newRow pf env userId args text)
      have hrow : (newRow pf env userId args text).erase = newRow pf env userId args text := rfl
      rw [hrow] at hinsert
      simp only [Option.map_none, World.erase_memories, hinsert, findByHash_erase]
      cases insertOnConflictDoNothing pf w.memories (newRow pf env userId args text) with
      | error e => exact eraseOutcome_raised e w
      | ok inserted =>
        cases inserted with
        | none =>
          simp only [Except.map, Option.map_none]
          cases findByHash w.memories userId (newRow pf env userId args text).contentHash with
          | none => exact eraseOutcome_raised _ w
          | some existing => exact eraseOutcome_returned (some existing) w
        | some memories => exact eraseOutcome_written (by simp)

theorem updateMemory_erase (pf : Platform) (client : MemoryClient R) (env : Env) (w : World R)
    (userId memoryId : UUID) (args : UpdateArgs) :
    eraseOutcome (answer pf client env w (.update userId memoryId args)) =
      eraseOutcome (answer pf offline env w.erase (.update userId memoryId args)) := by
  have hfound : (findOwned w.erase.memories userId memoryId).filter
        (fun row => row.deletedAt.isNone) =
      ((findOwned w.memories userId memoryId).filter fun row => row.deletedAt.isNone).map
        Memory.erase := by
    rw [World.erase_memories, findOwned_erase, Option.filter_map]
    rfl
  simp only [answer, updateMemory, hfound]
  cases (findOwned w.memories userId memoryId).filter fun row => row.deletedAt.isNone with
  | none => exact eraseOutcome_raised _ w
  | some row =>
    simp only [Option.map_some, applyPatch_erase]
    cases applyPatch pf row args with
    | error e => exact eraseOutcome_raised e w
    | ok p =>
      obtain ⟨row', changed⟩ := p
      simp only [Except.map, World.erase_memories, flush_erase]
      cases flush pf w.memories row' with
      | error e => exact eraseOutcome_raised _ w
      | ok memories => exact eraseOutcome_written (by simp)

/-- A delete of a live row writes the tombstone; whether there is a remote document decides only
the erased columns. -/
theorem deleteMemory_live (client : MemoryClient R) (env : Env) {w : World R}
    {userId memoryId : UUID} {row : Memory} (h : findOwned w.memories userId memoryId = some row)
    (hlive : row.live) :
    ∃ p : Memory × World R,
      deleteMemory client env userId memoryId w = (.ok (), commitRow w.memories p) ∧
        p.1.erase = { row.erase with deletedAt := some env.now } := by
  simp only [deleteMemory, h, hlive, Option.isSome_none, Bool.false_eq_true, if_false]
  split
  · exact ⟨({ row with deletedAt := some env.now }, w), rfl, rfl⟩
  · exact ⟨sendDelete client { row with deletedAt := some env.now } _ w, rfl, sendDelete_erase ..⟩

theorem deleteMemory_erase (pf : Platform) (client : MemoryClient R) (env : Env) (w : World R)
    (userId memoryId : UUID) :
    eraseOutcome (answer pf client env w (.delete userId memoryId)) =
      eraseOutcome (answer pf offline env w.erase (.delete userId memoryId)) := by
  have herased : findOwned w.erase.memories userId memoryId =
      (findOwned w.memories userId memoryId).map Memory.erase := findOwned_erase ..
  cases hfound : findOwned w.memories userId memoryId with
  | none =>
    rw [hfound, Option.map_none] at herased
    simp only [answer, deleteMemory, hfound, herased]
    exact eraseOutcome_raised _ w
  | some row =>
    rw [hfound, Option.map_some] at herased
    by_cases hlive : row.live
    · obtain ⟨p, hp, hrow⟩ := deleteMemory_live client env hfound hlive
      obtain ⟨q, hq, hrow'⟩ := deleteMemory_live offline env herased hlive
      simp only [answer, hp, hq]
      exact eraseOutcome_written_none (hrow.trans hrow'.symm)
    · have hdead : row.deletedAt.isSome = true := Option.isSome_iff_ne_none.2 hlive
      have hdead' : row.erase.deletedAt.isSome = true := hdead
      simp only [answer, deleteMemory, hfound, herased, if_pos hdead, if_pos hdead']
      exact eraseOutcome_returned none w

/-- A sync writes the row back with other `external_*` columns, or nothing. -/
theorem syncMemory_found (client : MemoryClient R) (env : Env) {w : World R}
    {userId memoryId : UUID} {row : Memory} (h : findOwned w.memories userId memoryId = some row) :
    ∃ p : Memory × World R,
      syncMemory client env userId memoryId w = (.ok p.1, commitRow w.memories p) ∧
        p.1.erase = row.erase := by
  have hrow : row ∈ w.memories.rows := (findOwned_eq_some.1 h).1
  simp only [syncMemory, h]
  split
  · refine ⟨(row, w), ?_, rfl⟩
    rw [commitRow, Table.put_of_mem hrow]
  · exact ⟨pushRow client env row true w, rfl, by simp⟩
  · split
    · exact ⟨({ row with externalStatus := .synced, externalError := none }, w), rfl, rfl⟩
    · exact ⟨retryDelete client row _ w, rfl, by simp⟩

theorem syncMemory_erase (pf : Platform) (client : MemoryClient R) (env : Env) (w : World R)
    (userId memoryId : UUID) :
    eraseOutcome (answer pf client env w (.sync userId memoryId)) =
      eraseOutcome (answer pf offline env w.erase (.sync userId memoryId)) := by
  have herased : findOwned w.erase.memories userId memoryId =
      (findOwned w.memories userId memoryId).map Memory.erase := findOwned_erase ..
  cases hfound : findOwned w.memories userId memoryId with
  | none =>
    rw [hfound, Option.map_none] at herased
    simp only [answer, syncMemory, hfound, herased]
    exact eraseOutcome_raised _ w
  | some row =>
    rw [hfound, Option.map_some] at herased
    obtain ⟨p, hp, hrow⟩ := syncMemory_found client env hfound
    obtain ⟨q, hq, hrow'⟩ := syncMemory_found offline env herased
    simp only [answer, hp, hq]
    exact eraseOutcome_written (hrow.trans hrow'.symm)

/-- **One request over any client** is, up to the erased columns, the request over `offline`. -/
theorem answer_erase (pf : Platform) (client : MemoryClient R) (env : Env) (w : World R)
    (req : Request) :
    eraseOutcome (answer pf client env w req) =
      eraseOutcome (answer pf offline env w.erase req) := by
  cases req with
  | create userId args => exact createMemory_erase pf client env w userId args
  | update userId memoryId args => exact updateMemory_erase pf client env w userId memoryId args
  | delete userId memoryId => exact deleteMemory_erase pf client env w userId memoryId
  | sync userId memoryId => exact syncMemory_erase pf client env w userId memoryId

/-! ## Two runs -/

/-- The committed rows without the `external_*` columns. -/
def World.localRows (w : World R) : MemoryTable := eraseTable w.memories

/-- Two clients in front of the same local rows. -/
theorem eraseOutcome_eq (pf : Platform) (client : MemoryClient R) (client' : MemoryClient R')
    (env : Env) {w : World R} {w' : World R'} (h : w.localRows = w'.localRows) (req : Request) :
    eraseOutcome (answer pf client env w req) = eraseOutcome (answer pf client' env w' req) := by
  have herase : w.erase = w'.erase := by
    simp only [World.erase]
    rw [show eraseTable w.memories = eraseTable w'.memories from h]
  rw [answer_erase pf client, answer_erase pf client', herase]

/-- **No outcome of a client call changes a local write.** Two runs of the same requests from the
same rows, over any two clients with any remote states, return or raise the same and commit the
same rows after every request, when the `external_*` columns are erased. -/
theorem local_writes_of_runs (pf : Platform) (client : MemoryClient R) (client' : MemoryClient R')
    (memories : MemoryTable) (remote : R) (remote' : R') (calls calls' : List ClientCall)
    (es : List MemoryEvent) :
    (replies pf client ⟨memories, remote, calls⟩ es).map eraseReply =
        (replies pf client' ⟨memories, remote', calls'⟩ es).map eraseReply ∧
      (Runs.states (memoryStep pf client) ⟨memories, remote, calls⟩ es).map World.localRows =
        (Runs.states (memoryStep pf client') ⟨memories, remote', calls'⟩ es).map
          World.localRows := by
  have hstep : ∀ (w : World R) (w' : World R') (e : MemoryEvent), w.localRows = w'.localRows →
      (memoryStep pf client w e).localRows = (memoryStep pf client' w' e).localRows := by
    intro w w' e h
    have heq := congrArg Prod.snd (eraseOutcome_eq pf client client' e.env h e.req)
    simp only [eraseOutcome, answer_world] at heq
    exact heq
  have hreply : ∀ (w : World R) (w' : World R') (e : MemoryEvent), w.localRows = w'.localRows →
      eraseReply (answer pf client e.env w e.req).1 =
        eraseReply (answer pf client' e.env w' e.req).1 :=
    fun w w' e h => congrArg Prod.fst (eraseOutcome_eq pf client client' e.env h e.req)
  have hstart : (⟨memories, remote, calls⟩ : World R).localRows =
      (⟨memories, remote', calls'⟩ : World R').localRows := rfl
  refine ⟨?_, Runs.map_states_eq hstep hstart es⟩
  rw [replies, replies, List.map_map, List.map_map]
  exact Runs.map_steps_eq hstep hreply hstart es

end MeJournal
