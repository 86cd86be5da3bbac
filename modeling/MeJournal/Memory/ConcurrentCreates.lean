import MeJournal.Memory.ConcurrentEdits
import MeJournal.Lib.Interleaving

/-!
# Interleaved creates and deletes

`create_memory` and `delete_memory` as they reach the database, each statement one move, under
READ COMMITTED.  A `SELECT` reads the committed rows; an `INSERT` or `UPDATE` stays with its
transaction until the COMMIT, and whoever meets it there waits.  Any number of requests of any
users are in flight.

* `MemoryDb.insert` — the `INSERT … ON CONFLICT DO NOTHING` among open transactions.
* `createMemory_alone`, `deleteMemory_alone` — moves that nobody interrupts do what
  `createMemory` and `deleteMemory` do.
-/

namespace MeJournal

variable {R : Type}

/-! ## The database -/

/-- The committed world and what open transactions have written. -/
structure MemoryDb (R : Type) where
  world : World R
  /-- Inserted, not committed. -/
  inserted : List Memory
  /-- Uncommitted versions of committed rows; each holds the lock of its row. -/
  updated : List Memory

/-- No open transactions. -/
def MemoryDb.idle (w : World R) : MemoryDb R := ⟨w, [], []⟩

def MemoryDb.locked (db : MemoryDb R) (id : UUID) : Bool := db.updated.any fun row => row.id = id

/-- The `INSERT` of `row` meets a row of an open transaction under the user's content hash, or,
when the hash is free, under its primary key. -/
def MemoryDb.insertWaits (db : MemoryDb R) (row : Memory) : Bool :=
  (db.inserted.any fun other =>
      other.userId = row.userId && other.contentHash = row.contentHash) ||
    match findByHash db.world.memories row.userId row.contentHash with
    | some other => db.locked other.id
    | none => (db.inserted.any fun other => other.id = row.id) || db.locked row.id

/-- How an `INSERT … ON CONFLICT DO NOTHING … RETURNING id` ends. -/
inductive InsertEnd where
  /-- Another transaction has to end first. -/
  | waits
  | raised (e : ServiceError)
  /-- No row is returned. -/
  | conflict
  | inserted

/-- `INSERT … ON CONFLICT DO NOTHING`; `users` are the ids the foreign key admits. -/
def MemoryDb.insert (pf : Platform) (users : UUID → Bool) (db : MemoryDb R) (row : Memory) :
    InsertEnd :=
  match row.refused pf with
  | some e => .raised (.raised e.exc)
  | none =>
    if db.insertWaits row then .waits
    else match insertOnConflictDoNothing pf db.world.memories row with
      | .error e => .raised e
      | .ok none => .conflict
      | .ok (some _) =>
        if users row.userId then .inserted else .raised (.integrity "memories_user_id_fkey")

/-- COMMIT of an inserted row. -/
def MemoryDb.commitInsert (db : MemoryDb R) (row : Memory) : MemoryDb R where
  world := { db.world with memories := db.world.memories.upsert row }
  inserted := db.inserted.filter fun other => other.id ≠ row.id
  updated := db.updated

/-- COMMIT of an updated row. -/
def MemoryDb.commitUpdate (db : MemoryDb R) (row : Memory) : MemoryDb R where
  world := { db.world with memories := db.world.memories.put row }
  inserted := db.inserted
  updated := db.updated.filter fun other => other.id ≠ row.id

/-! ## Create processes -/

/-- How far a `create_memory` is. -/
inductive CreatePc where
  | requested
  /-- Before the `INSERT` of the stripped text. -/
  | inserting (text : Text)
  /-- The `INSERT` returned no row. -/
  | rereading (digest : Digest)
  /-- Before the client call. -/
  | inserted (row : Memory)
  /-- Before `db.commit()`. -/
  | sent (row : Memory)
  /-- Before `db.refresh(row)`. -/
  | committed (id : UUID)
  | done (reply : Except ServiceError Memory)

structure CreateProc where
  userId : UUID
  args : CreateArgs
  pc : CreatePc

/-- What `db.refresh` raises on a row that is gone. -/
def couldNotRefresh : PyExc where
  cls := "InvalidRequestError"
  bases := ["SQLAlchemyError", "Exception"]
  message := "Could not refresh instance".toList

/-- The next statement of a `create_memory`. -/
def CreateProc.move (pf : Platform) (client : MemoryClient R) (users : UUID → Bool) (env : Env)
    (p : CreateProc) (db : MemoryDb R) : CreateProc × MemoryDb R :=
  match p.pc with
  | .requested =>
    match checkCreate pf p.args with
    | .error e => ({ p with pc := .done (.error e) }, db)
    | .ok text =>
      match p.args.idempotencyId.bind (findOwned db.world.memories p.userId) with
      | some existing =>
        if existing.deletedAt.isSome then
          ({ p with pc := .done (.error (.idempotencyReused existing.id)) }, db)
        else ({ p with pc := .done (.ok existing) }, db)
      | none => ({ p with pc := .inserting text }, db)
  | .inserting text =>
    let row := newRow pf env p.userId p.args text
    match db.insert pf users row with
    | .waits => (p, db)
    | .raised e => ({ p with pc := .done (.error e) }, db)
    | .conflict => ({ p with pc := .rereading row.contentHash }, db)
    | .inserted => ({ p with pc := .inserted row }, { db with inserted := row :: db.inserted })
  | .rereading digest =>
    match findByHash db.world.memories p.userId digest with
    | some existing => ({ p with pc := .done (.ok existing) }, db)
    | none => ({ p with pc := .done (.error .noResultFound) }, db)
  | .inserted row =>
    let (row', w) := sendToSupermemoryAdd client env row db.world
    ({ p with pc := .sent row' }, { db with world := w })
  | .sent row => ({ p with pc := .committed row.id }, db.commitInsert row)
  | .committed id =>
    match db.world.memories.find id with
    | some row => ({ p with pc := .done (.ok row) }, db)
    | none => ({ p with pc := .done (.error (.raised couldNotRefresh)) }, db)
  | .done _ => (p, db)

/-! ## Delete processes -/

/-- How far a `delete_memory` is. -/
inductive DeleteMemoryPc where
  | requested
  /-- Before the client call. -/
  | selected (loaded : Memory)
  /-- Before the `UPDATE`. -/
  | called (loaded current : Memory)
  /-- Before the COMMIT. -/
  | updated (row : Memory)
  | done

structure DeleteMemoryProc where
  userId : UUID
  memoryId : UUID
  pc : DeleteMemoryPc

/-- The next statement of a `delete_memory`. -/
def DeleteMemoryProc.move (client : MemoryClient R) (env : Env) (p : DeleteMemoryProc)
    (db : MemoryDb R) : DeleteMemoryProc × MemoryDb R :=
  match p.pc with
  | .requested =>
    match findOwned db.world.memories p.userId p.memoryId with
    | none => ({ p with pc := .done }, db)
    | some row =>
      if row.deletedAt.isSome then ({ p with pc := .done }, db)
      else ({ p with pc := .selected row }, db)
  | .selected loaded =>
    let marked := { loaded with deletedAt := some env.now }
    match loaded.externalId with
    | none => ({ p with pc := .called loaded marked }, db)
    | some docId =>
      let (row, w) := sendDelete client marked docId db.world
      ({ p with pc := .called loaded row }, { db with world := w })
  | .called loaded current =>
    if db.locked loaded.id then (p, db)
    else match db.world.memories.find loaded.id with
      | none => ({ p with pc := .done }, db)
      | some stored =>
        let row := writeColumns loaded current stored
        ({ p with pc := .updated row }, { db with updated := row :: db.updated })
  | .updated row => ({ p with pc := .done }, db.commitUpdate row)
  | .done => (p, db)

/-! ## The server -/

inductive MemoryProc where
  | create (p : CreateProc)
  | delete (p : DeleteMemoryProc)

def MemoryProc.move (pf : Platform) (client : MemoryClient R) (users : UUID → Bool) (env : Env)
    (p : MemoryProc) (db : MemoryDb R) : MemoryProc × MemoryDb R :=
  match p with
  | .create p => let r := p.move pf client users env db; (.create r.1, r.2)
  | .delete p => let r := p.move client env db; (.delete r.1, r.2)

abbrev MemoryServer (R : Type) := Interleaving.System (MemoryDb R) MemoryProc

/-- What happens at a server: a request comes in, or one makes its next move. -/
inductive MemoryServerEvent where
  | createMemory (userId : UUID) (args : CreateArgs)
  | deleteMemory (userId memoryId : UUID)
  | move (i : Nat) (env : Env)

def MemoryServerEvent.toEvent : MemoryServerEvent → Interleaving.Event MemoryProc Env
  | .createMemory userId args => .arrive (.create ⟨userId, args, .requested⟩)
  | .deleteMemory userId memoryId => .arrive (.delete ⟨userId, memoryId, .requested⟩)
  | .move i env => .move i env

def memoryServerStep (pf : Platform) (client : MemoryClient R) (users : UUID → Bool)
    (s : MemoryServer R) (e : MemoryServerEvent) : MemoryServer R :=
  Interleaving.step (MemoryProc.move pf client users) s e.toEvent

/-- No requests yet. -/
def memoryServerStart (w : World R) : MemoryServer R := ⟨.idle w, []⟩

/-! ## A request on its own -/

/-- `n` moves of one request in a row, each with the same `env`. -/
def MemoryProc.moves (pf : Platform) (client : MemoryClient R) (users : UUID → Bool) (env : Env) :
    Nat → MemoryProc × MemoryDb R → MemoryProc × MemoryDb R
  | 0, r => r
  | n + 1, r => MemoryProc.moves pf client users env n (r.1.move pf client users env r.2)

section Alone

variable {pf : Platform} {client : MemoryClient R} {users : UUID → Bool} {env : Env}

theorem memoryMoves_succ (n : Nat) (p : MemoryProc) (db : MemoryDb R) :
    MemoryProc.moves pf client users env (n + 1) (p, db) =
      MemoryProc.moves pf client users env n (p.move pf client users env db) := rfl

/-- A finished request stays as it is. -/
theorem memoryMoves_fixed {p : MemoryProc} {db : MemoryDb R}
    (h : p.move pf client users env db = (p, db)) (n : Nat) :
    MemoryProc.moves pf client users env n (p, db) = (p, db) := by
  induction n with
  | zero => rfl
  | succ n ih => rw [memoryMoves_succ, h, ih]

theorem createDone_moves (userId : UUID) (args : CreateArgs) (reply : Except ServiceError Memory)
    (db : MemoryDb R) (n : Nat) :
    MemoryProc.moves pf client users env n (.create ⟨userId, args, .done reply⟩, db) =
      (.create ⟨userId, args, .done reply⟩, db) := memoryMoves_fixed rfl n

theorem deleteDone_moves (userId memoryId : UUID) (db : MemoryDb R) (n : Nat) :
    MemoryProc.moves pf client users env n (.delete ⟨userId, memoryId, .done⟩, db) =
      (.delete ⟨userId, memoryId, .done⟩, db) := memoryMoves_fixed rfl n

/-- Without open transactions the `INSERT` is the one of the service. -/
theorem insert_idle (pf : Platform) (w : World R) {row : Memory} (huser : users row.userId = true) :
    (MemoryDb.idle w).insert pf users row =
      match insertOnConflictDoNothing pf w.memories row with
      | .error e => .raised e
      | .ok none => .conflict
      | .ok (some _) => .inserted := by
  have hwaits : (MemoryDb.idle w).insertWaits row = false := by
    simp only [MemoryDb.insertWaits, MemoryDb.idle, MemoryDb.locked, List.any_nil, Bool.or_false,
      Bool.false_or]
    split <;> rfl
  cases hrefused : row.refused pf with
  | some e => simp only [MemoryDb.insert, insertOnConflictDoNothing, hrefused]
  | none =>
    simp only [MemoryDb.insert, hrefused, hwaits, Bool.false_eq_true, if_false, huser, if_true]
    rfl

/-- An inserted row is sent, committed and read back. -/
theorem inserted_alone (userId : UUID) (args : CreateArgs) {row : Memory} {w : World R}
    {memories : MemoryTable} (hinsert : w.memories.insert? row = some memories) :
    MemoryProc.moves pf client users env 3
        (.create ⟨userId, args, .inserted row⟩, { MemoryDb.idle w with inserted := [row] }) =
      (.create ⟨userId, args, .done (.ok (sendToSupermemoryAdd client env row w).1)⟩,
        .idle (commitRow memories (sendToSupermemoryAdd client env row w))) := by
  have hid := sendToSupermemoryAdd_id client env row w
  have hmemories : (sendToSupermemoryAdd client env row w).2.memories = w.memories := rfl
  rw [memoryMoves_succ]
  simp only [MemoryProc.move, CreateProc.move, MemoryDb.idle]
  generalize sendToSupermemoryAdd client env row w = sent at hid hmemories ⊢
  obtain ⟨row', w'⟩ := sent
  simp only at hid hmemories
  have hput : memories.put row' = w'.memories.upsert row' := by
    rw [hmemories, Table.put_insert? hinsert hid]
  have hfind : (w'.memories.upsert row').find row.id = some row' :=
    Table.find_eq_some.2 ⟨Table.mem_upsert_self _ _, hid⟩
  simp only [memoryMoves_succ, MemoryProc.move, CreateProc.move, MemoryDb.commitInsert, commitRow,
    hput, hid]
  simp [MemoryProc.moves, hfind]

/-- **Uninterrupted, a create does what `create_memory` does**, for a user of the database. -/
theorem createMemory_alone (userId : UUID) (args : CreateArgs) (w : World R)
    (huser : users userId = true) :
    MemoryProc.moves pf client users env 5 (.create ⟨userId, args, .requested⟩, .idle w) =
      (.create ⟨userId, args, .done (createMemory pf client env userId args w).1⟩,
        .idle (createMemory pf client env userId args w).2) := by
  rw [memoryMoves_succ]
  simp only [MemoryProc.move, CreateProc.move, createMemory, MemoryDb.idle]
  cases checkCreate pf args with
  | error e => exact createDone_moves userId args _ _ 4
  | ok text =>
    simp only
    cases args.idempotencyId.bind (findOwned w.memories userId) with
    | some existing =>
      simp only
      split <;> exact createDone_moves userId args _ _ 4
    | none =>
      simp only
      have huser : users (newRow pf env userId args text).userId = true := huser
      have hidle := insert_idle pf w huser
      simp only [MemoryDb.idle] at hidle
      rw [memoryMoves_succ]
      simp only [MemoryProc.move, CreateProc.move, hidle]
      cases hins : insertOnConflictDoNothing pf w.memories (newRow pf env userId args text) with
      | error e => exact createDone_moves userId args _ _ 3
      | ok inserted =>
        cases inserted with
        | none =>
          simp only
          rw [memoryMoves_succ]
          simp only [MemoryProc.move, CreateProc.move]
          cases findByHash w.memories userId (newRow pf env userId args text).contentHash with
          | none => exact createDone_moves userId args _ _ 2
          | some existing => exact createDone_moves userId args _ _ 2
        | some memories =>
          obtain ⟨_, hinsert⟩ := insertOnConflictDoNothing_inserted hins
          exact inserted_alone userId args hinsert

/-- A `client.delete` changes neither the identity of the row nor the committed rows. -/
theorem sendDelete_fields (client : MemoryClient R) (row : Memory) (docId : String) (w : World R) :
    (sendDelete client row docId w).1.id = row.id ∧
      (sendDelete client row docId w).1.userId = row.userId ∧
      (sendDelete client row docId w).1.createdAt = row.createdAt ∧
      (sendDelete client row docId w).2.memories = w.memories := by
  refine ⟨sendDelete_id .., ?_, ?_, rfl⟩ <;> simp only [sendDelete] <;> split <;> rfl

/-- A copy marked as deleted is written and committed. -/
theorem called_delete_alone (userId memoryId : UUID) {loaded current : Memory} {w : World R}
    (hrow : loaded ∈ w.memories.rows) (hid : current.id = loaded.id)
    (huser : current.userId = loaded.userId) (hcreated : current.createdAt = loaded.createdAt) :
    MemoryProc.moves pf client users env 2
        (.delete ⟨userId, memoryId, .called loaded current⟩, .idle w) =
      (.delete ⟨userId, memoryId, .done⟩, .idle (commitRow w.memories (current, w))) := by
  have hfind : w.memories.find loaded.id = some loaded := Table.find_eq_some.2 ⟨hrow, rfl⟩
  have hwrite := writeColumns_loaded hid huser hcreated
  simp only [memoryMoves_succ, MemoryProc.move, DeleteMemoryProc.move, MemoryDb.idle,
    MemoryDb.locked, List.any_nil, Bool.false_eq_true, if_false, hfind, hwrite,
    MemoryDb.commitUpdate, commitRow]
  simp [MemoryProc.moves]

/-- **Uninterrupted, a delete does what `delete_memory` does.** -/
theorem deleteMemory_alone (userId memoryId : UUID) (w : World R) :
    MemoryProc.moves pf client users env 4 (.delete ⟨userId, memoryId, .requested⟩, .idle w) =
      (.delete ⟨userId, memoryId, .done⟩, .idle (deleteMemory client env userId memoryId w).2) := by
  rw [memoryMoves_succ]
  simp only [MemoryProc.move, DeleteMemoryProc.move, deleteMemory, MemoryDb.idle]
  cases hfound : findOwned w.memories userId memoryId with
  | none => exact deleteDone_moves userId memoryId _ 3
  | some row =>
    obtain ⟨hrow, _, _⟩ := findOwned_eq_some.1 hfound
    simp only
    split
    · exact deleteDone_moves userId memoryId _ 3
    · simp only
      rw [memoryMoves_succ]
      simp only [MemoryProc.move, DeleteMemoryProc.move]
      have hid : { row with deletedAt := some env.now }.id = row.id := rfl
      have huser : { row with deletedAt := some env.now }.userId = row.userId := rfl
      have hcreated : { row with deletedAt := some env.now }.createdAt = row.createdAt := rfl
      generalize { row with deletedAt := some env.now } = marked at hid huser hcreated ⊢
      cases row.externalId with
      | none => exact called_delete_alone userId memoryId hrow hid huser hcreated
      | some docId =>
        obtain ⟨hid', huser', hcreated', hmemories⟩ := sendDelete_fields client marked docId w
        simp only
        rw [← hmemories] at hrow ⊢
        exact called_delete_alone userId memoryId hrow (hid'.trans hid) (huser'.trans huser)
          (hcreated'.trans hcreated)

end Alone

end MeJournal
