import MeJournal.Lib.Gen
import MeJournal.Memory.LocalWrites

/-!
# The write methods, statement by statement

`app/services/memory.py` and `app/db/session.py` (`autoflush=False`, `expire_on_commit=False`).
A write method is here the sequence of its statements on a database session: selects, changes of
the loaded row, `flush`, `rollback`, the client call, `commit`, `refresh`.  An exception leaves
the session where it stands, and closing it drops what is not committed.  A `commit` does not
fail.

* `DbSession`, `Tx` — the session, and programs on it that report the writes the database accepted
  and the client calls.
* `createTx`, `updateTx`, `deleteTx`, `syncTx` — the four methods.
* `requestTx_answer` — they do what `answer` says.
-/

namespace MeJournal.Transactions

variable {R : Type}

/-- A session: the committed rows, the rows as its transaction sees them, a loaded row with
changes not flushed yet; beside it the remote state. -/
structure DbSession (R : Type) where
  committed : MemoryTable
  working : MemoryTable
  dirty : Option Memory
  remote : R

/-- The session of a new request. -/
def DbSession.start (w : World R) : DbSession R := ⟨w.memories, w.memories, none, w.remote⟩

/-- What a write method does that can be seen from outside its Python code. -/
inductive TxEffect where
  /-- The database accepted an `INSERT` or an `UPDATE` with this row. -/
  | wrote (row : Memory)
  | call (c : ClientCall)

abbrev Tx (R α : Type) := Gen (DbSession R) ServiceError TxEffect α

/-! ## Statements -/

/-- `db.execute(select(…))`. -/
def select {α : Type} (query : MemoryTable → α) : Tx R α := Gen.read fun s => query s.working

/-- Assignments to the attributes of the loaded row. -/
def assign (row : Memory) : Tx R Unit := Gen.modify fun s => { s with dirty := some row }

/-- A statement that the database accepted. -/
def write (memories : MemoryTable) (row : Memory) : Tx R Unit := do
  Gen.modify fun s => { s with working := memories, dirty := none }
  Gen.emit (.wrote row)

/-- `db.execute(pg_insert(…).on_conflict_do_nothing(…).returning(Memory.id))`. -/
def insertReturning (pf : Platform) (row : Memory) : Tx R (Option UUID) := do
  let inserted ← select fun memories => insertOnConflictDoNothing pf memories row
  match inserted with
  | .error e => Gen.raise e
  | .ok none => pure none
  | .ok (some memories) => do
    write memories row
    pure (some row.id)

/-- The `UPDATE` of a changed row. -/
def writeRow (pf : Platform) (row : Memory) : Tx R Unit := do
  let flushed ← select fun memories => flush pf memories row
  match flushed with
  | .error e => Gen.raise e
  | .ok memories => write memories row

/-- `db.flush()`. -/
def flushSession (pf : Platform) : Tx R Unit := do
  let dirty ← Gen.read DbSession.dirty
  match dirty with
  | none => pure ()
  | some row => writeRow pf row

/-- `db.rollback()`. -/
def rollback : Tx R Unit := Gen.modify fun s => { s with working := s.committed, dirty := none }

/-- A helper that calls the client and sets the `external_*` columns of the row. -/
def callClient (send : World R → Memory × World R) : Tx R Unit := fun s =>
  let (row, w) := send ⟨s.working, s.remote, []⟩
  ⟨w.calls.map .call, .ok (), { s with remote := w.remote, dirty := some row }⟩

/-- The rows that a `commit` writes. -/
def DbSession.flushed (s : DbSession R) : MemoryTable := s.dirty.elim s.working s.working.put

/-- `db.commit()`. -/
def commit : Tx R Unit :=
  Gen.modify fun s => { s with committed := s.flushed, working := s.flushed, dirty := none }

/-- What `db.refresh` raises on a row that is gone. -/
def invalidRequestError : PyExc where
  cls := "InvalidRequestError"
  bases := ["SQLAlchemyError", "Exception"]
  message := "Could not refresh instance".toList

/-- `db.refresh(row)`, in the transaction after the commit. -/
def refresh (id : UUID) : Tx R Memory := do
  let found ← Gen.read fun s => s.committed.find id
  match found with
  | none => Gen.raise (.raised invalidRequestError)
  | some row => pure row

/-! ## The four methods -/

/-- `create_memory`. -/
def createTx (pf : Platform) (client : MemoryClient R) (env : Env) (userId : UUID)
    (args : CreateArgs) : Tx R Memory := do
  let text ← Gen.ofExcept (checkCreate pf args)
  let existing ← select fun memories => args.idempotencyId.bind (findOwned memories userId)
  match existing with
  | some existing =>
    if existing.deletedAt.isSome then Gen.raise (.idempotencyReused existing.id)
    else pure existing
  | none => do
    let newId ← insertReturning pf (newRow pf env userId args text)
    match newId with
    | none => do
      let existing ← select fun memories => findByHash memories userId (canonicalHash pf text)
      match existing with
      | some existing => pure existing
      | none => Gen.raise .noResultFound
    | some newId => do
      flushSession pf
      let loaded ← select fun memories => memories.find newId
      match loaded with
      | none => Gen.raise .noResultFound
      | some row => do
        callClient (sendToSupermemoryAdd client env row)
        commit
        refresh row.id

/-- The `except IntegrityError` of `update_memory`. -/
def flushFailed (textChanged : Bool) : ServiceError → Tx R Unit
  | .integrity constraint => do
    rollback
    Gen.raise (duplicateOr textChanged (.integrity constraint))
  | e => Gen.raise e

/-- `update_memory`. -/
def updateTx (pf : Platform) (client : MemoryClient R) (env : Env) (userId memoryId : UUID)
    (args : UpdateArgs) : Tx R Memory := do
  let found ← select fun memories =>
    (findOwned memories userId memoryId).filter fun row => row.deletedAt.isNone
  match found with
  | none => Gen.raise (.notFound memoryId)
  | some row => do
    Gen.ofExcept (checkUpdate pf row args)
    let (row', textChanged) ← Gen.ofExcept (patchText pf row args.text)
    assign row'
    assign (patchColumns row' args)
    (flushSession pf).handle (flushFailed textChanged)
    callClient (pushRow client env (patchColumns row' args) textChanged)
    commit
    refresh (patchColumns row' args).id

/-- The remote delete of `delete_memory`; `row` has its `deleted_at`. -/
def removeTx (client : MemoryClient R) (row : Memory) : Tx R Unit :=
  match row.externalId with
  | none => pure ()
  | some docId => callClient (sendDelete client row docId)

/-- `delete_memory`. -/
def deleteTx (client : MemoryClient R) (env : Env) (userId memoryId : UUID) : Tx R Unit := do
  let found ← select fun memories => findOwned memories userId memoryId
  match found with
  | none => Gen.raise (.notFound memoryId)
  | some row =>
    if row.deletedAt.isSome then pure ()
    else do
      assign { row with deletedAt := some env.now }
      removeTx client { row with deletedAt := some env.now }
      commit

/-- The part of `sync_memory` before its commit, for a row that is not `synced`. -/
def settleTx (client : MemoryClient R) (env : Env) (row : Memory) : Tx R Unit :=
  match row.externalStatus with
  | .synced => pure ()
  | .unsynced => callClient (pushRow client env row true)
  | .pendingDelete =>
    match row.externalId with
    | none => assign { row with externalStatus := .synced, externalError := none }
    | some docId => callClient (retryDelete client row docId)

/-- `sync_memory`. -/
def syncTx (client : MemoryClient R) (env : Env) (userId memoryId : UUID) : Tx R Memory := do
  let found ← select fun memories => findOwned memories userId memoryId
  match found with
  | none => Gen.raise (.notFound memoryId)
  | some row =>
    if row.externalStatus = .synced then pure row
    else do
      settleTx client env row
      commit
      refresh row.id

def requestTx (pf : Platform) (client : MemoryClient R) (env : Env) :
    Request → Tx R (Option Memory)
  | .create userId args => some <$> createTx pf client env userId args
  | .update userId memoryId args => some <$> updateTx pf client env userId memoryId args
  | .delete userId memoryId => (fun _ => none) <$> deleteTx client env userId memoryId
  | .sync userId memoryId => some <$> syncTx client env userId memoryId

/-! ## The methods of `Service` -/

/-- The client call of an effect. -/
def TxEffect.call? : TxEffect → Option ClientCall
  | .wrote _ => none
  | .call c => some c

/-- A run on the session of `w` ended as `answer` says. -/
structure Agrees {α : Type} (w : World R) (run : GenRun (DbSession R) ServiceError TxEffect α)
    (answer : Except ServiceError α × World R) : Prop where
  result : run.result = answer.1
  committed : run.state.committed = answer.2.memories
  remote : run.state.remote = answer.2.remote
  calls : answer.2.calls = w.calls ++ run.emitted.filterMap TxEffect.call?

section Start

variable {α β : Type} {w : World R}

theorem raise_agrees (e : ServiceError) :
    Agrees w ((Gen.raise e : Tx R α) (DbSession.start w)) (.error e, w) :=
  ⟨rfl, rfl, rfl, (List.append_nil _).symm⟩

theorem return_agrees (a : α) : Agrees w ((pure a : Tx R α) (DbSession.start w)) (.ok a, w) :=
  ⟨rfl, rfl, rfl, (List.append_nil _).symm⟩

theorem select_start (query : MemoryTable → α) (f : α → Tx R β) :
    (select query >>= f) (DbSession.start w) = f (query w.memories) (DbSession.start w) :=
  Gen.bind_of_silent rfl f

theorem ofExcept_start {r : Except ServiceError α} {a : α} (h : r = .ok a) (f : α → Tx R β) :
    (Gen.ofExcept r >>= f) (DbSession.start w) = f a (DbSession.start w) := by
  subst h
  exact Gen.bind_of_silent rfl f

theorem ofExcept_start_error {r : Except ServiceError α} {e : ServiceError} (h : r = .error e)
    (f : α → Tx R β) : Agrees w ((Gen.ofExcept r >>= f) (DbSession.start w)) (.error e, w) := by
  subst h
  rw [Gen.bind_of_error rfl]
  exact raise_agrees e

end Start

theorem select_run {α : Type} (query : MemoryTable → α) (s : DbSession R) :
    select query s = ⟨[], .ok (query s.working), s⟩ := rfl

theorem flushSession_clean (pf : Platform) {committed working : MemoryTable} {remote : R} :
    flushSession pf ⟨committed, working, none, remote⟩ =
      ⟨[], .ok (), ⟨committed, working, none, remote⟩⟩ := rfl

theorem assign_bind {β : Type} (row : Memory) (f : Unit → Tx R β) (s : DbSession R) :
    (assign row >>= f) s = f () { s with dirty := some row } :=
  Gen.bind_of_silent rfl f

/-- A client helper reads the remote state only, and adds to the log. -/
structure RemoteOnly (send : World R → Memory × World R) : Prop where
  row : ∀ w t, (send ⟨t, w.remote, []⟩).1 = (send w).1
  remote : ∀ w t, (send ⟨t, w.remote, []⟩).2.remote = (send w).2.remote
  calls : ∀ w t, (send w).2.calls = w.calls ++ (send ⟨t, w.remote, []⟩).2.calls

theorem sendToSupermemoryAdd_remoteOnly (client : MemoryClient R) (env : Env) (row : Memory) :
    RemoteOnly (sendToSupermemoryAdd client env row) :=
  ⟨fun _ _ => rfl, fun _ _ => rfl, fun _ _ => rfl⟩

theorem pushRow_remoteOnly (client : MemoryClient R) (env : Env) (row : Memory)
    (contentChanged : Bool) : RemoteOnly (pushRow client env row contentChanged) := by
  unfold pushRow
  split
  · exact sendToSupermemoryAdd_remoteOnly client env row
  · exact ⟨fun _ _ => rfl, fun _ _ => rfl, fun _ _ => rfl⟩

/-- The end of a method, from a session that has the row. -/
theorem commit_refresh_run (s : DbSession R) {row : Memory} {id : UUID}
    (hdirty : s.dirty = some row) (hid : row.id = id) (hpresent : s.working.has id = true) :
    (do commit; refresh id : Tx R Memory) s =
      ⟨[], .ok row, ⟨s.working.put row, s.working.put row, none, s.remote⟩⟩ := by
  subst hid
  obtain ⟨old, hold, hid⟩ := Table.has_iff.1 hpresent
  have hfind : (s.working.put row).find row.id = some row :=
    Table.find_eq_some.2 ⟨Table.mem_put_self hold hid, rfl⟩
  simp [bind, Gen.andThen, commit, Gen.modify, refresh, Gen.read, DbSession.flushed, hdirty,
    hfind, pure, Gen.ret]

/-- A changed row and the end of the method. -/
theorem commit_agrees {w : World R} {row : Memory} {id : UUID} (hid : row.id = id)
    (hpresent : w.memories.has id = true) :
    Agrees w ((do commit; refresh id : Tx R Memory) { DbSession.start w with dirty := some row })
      (.ok row, commitRow w.memories (row, w)) := by
  rw [commit_refresh_run _ rfl hid hpresent]
  exact ⟨rfl, rfl, rfl, (List.append_nil _).symm⟩

/-- A client call and the end of the method. -/
theorem push_agrees {w : World R} {send : World R → Memory × World R} {id : UUID}
    (hsend : RemoteOnly send) (hid : (send w).1.id = id) (s : DbSession R)
    (hremote : s.remote = w.remote) (hpresent : s.working.has id = true) :
    Agrees w ((do callClient send; commit; refresh id : Tx R Memory) s)
      (.ok (send w).1, commitRow s.working (send w)) := by
  obtain ⟨committed, working, dirty, remote⟩ := s
  cases hremote
  have hcall : (callClient send ⟨committed, working, dirty, w.remote⟩).result = .ok () := rfl
  have hend : (do commit; refresh id : Tx R Memory)
      (callClient send ⟨committed, working, dirty, w.remote⟩).state = _ :=
    commit_refresh_run _ (congrArg some (hsend.row w working)) hid hpresent
  rw [Gen.bind_of_ok hcall, hend]
  refine ⟨rfl, rfl, hsend.remote w working, ?_⟩
  rw [commitRow_calls, hsend.calls w working, List.append_nil, callClient, List.filterMap_map]
  simp [Function.comp_def, TxEffect.call?]

theorem retryDelete_remoteOnly (client : MemoryClient R) (row : Memory) (docId : String) :
    RemoteOnly (retryDelete client row docId) :=
  ⟨fun _ _ => rfl, fun _ _ => rfl, fun _ _ => rfl⟩

theorem syncTx_agrees (client : MemoryClient R) (env : Env) (userId memoryId : UUID)
    (w : World R) :
    Agrees w (syncTx client env userId memoryId (DbSession.start w))
      (syncMemory client env userId memoryId w) := by
  unfold syncMemory syncTx
  rw [select_start]
  cases hfound : findOwned w.memories userId memoryId with
  | none => exact raise_agrees _
  | some row =>
    have hpresent : w.memories.has row.id = true :=
      Table.has_iff.2 ⟨row, (findOwned_eq_some.1 hfound).1, rfl⟩
    cases hstatus : row.externalStatus with
    | synced =>
      simp only [hstatus, if_true]
      exact return_agrees row
    | unsynced =>
      simp only [hstatus, settleTx, reduceCtorEq, if_false]
      exact push_agrees (pushRow_remoteOnly client env row true) (pushRow_id ..) _ rfl hpresent
    | pendingDelete =>
      simp only [hstatus, settleTx, reduceCtorEq, if_false]
      cases hext : row.externalId with
      | none =>
        simp only
        rw [assign_bind]
        exact commit_agrees rfl hpresent
      | some docId =>
        simp only
        exact push_agrees (retryDelete_remoteOnly client row docId) (retryDelete_id ..) _ rfl
          hpresent

theorem deleteTx_agrees (client : MemoryClient R) (env : Env) (userId memoryId : UUID)
    (w : World R) :
    Agrees w (deleteTx client env userId memoryId (DbSession.start w))
      (deleteMemory client env userId memoryId w) := by
  unfold deleteMemory deleteTx
  rw [select_start]
  cases findOwned w.memories userId memoryId with
  | none => exact raise_agrees _
  | some row =>
    by_cases hdead : row.deletedAt.isSome = true
    · simp only [hdead, if_true]
      exact return_agrees ()
    · simp only [hdead, if_false, Bool.false_eq_true]
      rw [assign_bind]
      unfold removeTx
      cases hext : row.externalId with
      | none => exact ⟨rfl, rfl, rfl, (List.append_nil _).symm⟩
      | some docId => exact ⟨rfl, rfl, rfl, rfl⟩

/-- A part that raises, and what would have followed. -/
theorem failed_agrees {α β : Type} {w : World R} {g : Tx R α} {f : α → Tx R β} {e : ServiceError}
    {s s' : DbSession R} (hg : g s = ⟨[], .error e, s'⟩) (hcommitted : s'.committed = w.memories)
    (hremote : s'.remote = w.remote) : Agrees w ((g >>= f) s) (.error e, w) := by
  rw [Gen.bind_of_error (congrArg GenRun.result hg), hg]
  exact ⟨rfl, hcommitted, hremote, (List.append_nil _).symm⟩

/-- A statement that the database accepts, and what follows. -/
theorem wrote_agrees {α β : Type} {w : World R} {g : Tx R α} {f : α → Tx R β} {a : α}
    {row : Memory} {s s' : DbSession R} {p : Except ServiceError β × World R}
    (hg : g s = ⟨[.wrote row], .ok a, s'⟩) (hf : Agrees w (f a s') p) :
    Agrees w ((g >>= f) s) p := by
  have hstate : (g s).state = s' := congrArg GenRun.state hg
  rw [Gen.bind_of_ok (congrArg GenRun.result hg), hstate]
  refine ⟨hf.result, hf.committed, hf.remote, hf.calls.trans ?_⟩
  rw [hg]
  rfl

theorem insertReturning_run (pf : Platform) (w : World R) (row : Memory) :
    insertReturning pf row (DbSession.start w) =
      match insertOnConflictDoNothing pf w.memories row with
      | .error e => ⟨[], .error e, DbSession.start w⟩
      | .ok none => ⟨[], .ok none, DbSession.start w⟩
      | .ok (some memories) =>
        ⟨[.wrote row], .ok (some row.id), ⟨w.memories, memories, none, w.remote⟩⟩ := by
  unfold insertReturning
  rw [select_start]
  cases insertOnConflictDoNothing pf w.memories row with
  | error e => rfl
  | ok inserted =>
    cases inserted with
    | none => rfl
    | some memories => rfl

theorem createTx_agrees (pf : Platform) (client : MemoryClient R) (env : Env) (userId : UUID)
    (args : CreateArgs) (w : World R) :
    Agrees w (createTx pf client env userId args (DbSession.start w))
      (createMemory pf client env userId args w) := by
  unfold createMemory createTx
  cases hcheck : checkCreate pf args with
  | error e => exact ofExcept_start_error rfl _
  | ok text =>
    rw [ofExcept_start rfl, select_start]
    cases args.idempotencyId.bind (findOwned w.memories userId) with
    | some existing =>
      dsimp only
      split
      · exact raise_agrees _
      · exact return_agrees existing
    | none =>
      dsimp only
      have hrun := insertReturning_run pf w (newRow pf env userId args text)
      cases hinsert : insertOnConflictDoNothing pf w.memories (newRow pf env userId args text) with
      | error e =>
        rw [hinsert] at hrun
        exact failed_agrees hrun rfl rfl
      | ok inserted =>
        rw [hinsert] at hrun
        cases inserted with
        | none =>
          have hhash : (newRow pf env userId args text).contentHash = canonicalHash pf text := rfl
          rw [Gen.bind_of_silent hrun, hhash]
          dsimp only
          rw [select_start]
          cases findByHash w.memories userId (canonicalHash pf text) with
          | none => exact raise_agrees _
          | some existing => exact return_agrees existing
        | some memories =>
          refine wrote_agrees hrun ?_
          have hfind : memories.find (newRow pf env userId args text).id =
              some (newRow pf env userId args text) := by
            rw [Table.find_insert? (insertOnConflictDoNothing_inserted hinsert).2, if_pos rfl]
          dsimp only
          rw [Gen.bind_of_silent (flushSession_clean pf), Gen.bind_of_silent (select_run _ _),
            hfind]
          exact push_agrees (sendToSupermemoryAdd_remoteOnly client env _)
            (sendToSupermemoryAdd_id ..) _ rfl
            (Table.has_iff.2 ⟨_, Table.find_eq_some.1 hfind⟩)

/-- The flush of `update_memory` that raises; an `IntegrityError` rolls the session back. -/
theorem flushFailed_run {pf : Platform} {w : World R} {row : Memory} {e : ServiceError}
    (changed : Bool) (h : flush pf w.memories row = .error e) :
    ∃ dirty, (flushSession pf).handle (flushFailed changed)
        { DbSession.start w with dirty := some row } =
      ⟨[], .error (duplicateOr changed e), { DbSession.start w with dirty := dirty }⟩ := by
  have hflush : flushSession pf { DbSession.start w with dirty := some row } =
      ⟨[], .error e, { DbSession.start w with dirty := some row }⟩ := by
    simp [flushSession, writeRow, bind, Gen.andThen, Gen.read, select, DbSession.start, h,
      Gen.raise]
  rw [Gen.handle_of_error (congrArg GenRun.result hflush), hflush]
  cases e with
  | integrity constraint => exact ⟨none, rfl⟩
  | notFound _ | duplicate _ | validation _ | idempotencyReused _ | noResultFound | raised _ =>
    exact ⟨some row, rfl⟩

theorem flushSession_wrote {pf : Platform} {w : World R} {row : Memory} {memories : MemoryTable}
    (h : flush pf w.memories row = .ok memories) (changed : Bool) :
    (flushSession pf).handle (flushFailed changed) { DbSession.start w with dirty := some row } =
      ⟨[.wrote row], .ok (), ⟨w.memories, memories, none, w.remote⟩⟩ := by
  have hflush : flushSession pf { DbSession.start w with dirty := some row } =
      ⟨[.wrote row], .ok (), ⟨w.memories, memories, none, w.remote⟩⟩ := by
    simp [flushSession, writeRow, bind, Gen.andThen, Gen.read, select, DbSession.start, h,
      write, Gen.modify, Gen.emit]
  rw [Gen.handle_of_ok (congrArg GenRun.result hflush), hflush]

theorem patchText_id {pf : Platform} {row row' : Memory} {text : Patch Text} {changed : Bool}
    (h : patchText pf row text = .ok (row', changed)) : row'.id = row.id := by
  obtain ⟨rfl, -, -⟩ | ⟨new, -, -, -, -, rfl⟩ := patchText_cases h
  · rfl
  · rfl

theorem updateTx_agrees (pf : Platform) (client : MemoryClient R) (env : Env)
    (userId memoryId : UUID) (args : UpdateArgs) (w : World R) :
    Agrees w (updateTx pf client env userId memoryId args (DbSession.start w))
      (updateMemory pf client env userId memoryId args w) := by
  unfold updateMemory updateTx
  rw [select_start]
  cases hfound : (findOwned w.memories userId memoryId).filter fun row => row.deletedAt.isNone with
  | none => exact raise_agrees _
  | some row =>
    obtain ⟨hrow, -⟩ := findOwned_eq_some.1 (Option.filter_eq_some_iff.1 hfound).1
    unfold applyPatch
    dsimp only
    cases hcheck : checkUpdate pf row args with
    | error e => exact ofExcept_start_error rfl _
    | ok _ =>
      rw [ofExcept_start rfl]
      cases hpatch : patchText pf row args.text with
      | error e => exact ofExcept_start_error rfl _
      | ok p =>
        obtain ⟨row', textChanged⟩ := p
        rw [ofExcept_start rfl]
        dsimp only
        rw [assign_bind, assign_bind]
        cases hflush : flush pf w.memories (patchColumns row' args) with
        | error e =>
          obtain ⟨dirty, hfailed⟩ := flushFailed_run textChanged hflush
          exact failed_agrees hfailed rfl rfl
        | ok memories =>
          have hpresent : memories.has (patchColumns row' args).id = true := by
            rw [flush_ok hflush, Table.has_put]
            exact Table.has_iff.2 ⟨row, hrow, (patchText_id hpatch).symm⟩
          refine wrote_agrees (flushSession_wrote hflush textChanged) ?_
          exact push_agrees (pushRow_remoteOnly client env _ textChanged) (pushRow_id ..) _ rfl
            hpresent

theorem Agrees.map {α β : Type} {w : World R} {g : Tx R α} {s : DbSession R}
    {p : Except ServiceError α × World R} (hg : Agrees w (g s) p) (f : α → β) :
    Agrees w ((f <$> g) s) (p.1.map f, p.2) := by
  cases hr : (g s).result with
  | ok a =>
    have hrun : (f <$> g) s = ⟨(g s).emitted ++ [], .ok (f a), (g s).state⟩ := Gen.bind_of_ok hr _
    rw [hrun, ← hg.result, hr, List.append_nil]
    exact ⟨rfl, hg.committed, hg.remote, hg.calls⟩
  | error e =>
    have hrun : (f <$> g) s = ⟨(g s).emitted, .error e, (g s).state⟩ := Gen.bind_of_error hr _
    rw [hrun, ← hg.result, hr]
    exact ⟨rfl, hg.committed, hg.remote, hg.calls⟩

/-- **The statements do what `answer` says**: the same reply, committed rows, remote state and
client calls. -/
theorem requestTx_answer (pf : Platform) (client : MemoryClient R) (env : Env) (w : World R)
    (req : Request) :
    Agrees w (requestTx pf client env req (DbSession.start w)) (answer pf client env w req) := by
  cases req with
  | create userId args => exact (createTx_agrees pf client env userId args w).map some
  | update userId memoryId args =>
    exact (updateTx_agrees pf client env userId memoryId args w).map some
  | delete userId memoryId => exact (deleteTx_agrees client env userId memoryId w).map _
  | sync userId memoryId => exact (syncTx_agrees client env userId memoryId w).map some

end MeJournal.Transactions
