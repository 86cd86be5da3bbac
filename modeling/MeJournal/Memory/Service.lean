import MeJournal.Memory.Client

/-!
# The write methods of the memory service

`app/services/memory.py`: `createMemory`, `updateMemory`, `deleteMemory`, `syncMemory`, over
any `MemoryClient`.  The world holds the committed rows, the remote state and the log of
client calls.  A request that raises leaves the committed rows alone (its session is rolled
back); a request that returns has committed.

`request_effect` is the inversion lemma: everything one request can do to the world, with
the guards it checked.  The invariants of the later modules are case analyses on `Effect`.
-/

namespace MeJournal

variable {R : Type}

/-- Committed rows, remote state, calls made so far. -/
structure World (R : Type) where
  memories : MemoryTable
  remote : R
  calls : List ClientCall

/-- What one request reads from outside: `datetime.now(UTC)`, the database's `now()` and
`gen_random_uuid()`. -/
structure Env where
  now : Time
  dbNow : Time
  newId : UUID

/-! ## Client calls -/

/-- `_send_to_supermemory_add`: the row with its `external_*` columns set by the outcome. -/
def sendToSupermemoryAdd (client : MemoryClient R) (env : Env) (row : Memory) (w : World R) :
    Memory × World R :=
  let tags := [containerTag row.userId]
  let response := client.add w.remote row.id row.text tags (buildMetadata row)
  (match response.1 with
    | .error err => { row with externalStatus := .unsynced, externalError := some err.name }
    | .ok result =>
      { row with
        externalId := some result.docId, externalStatus := .synced,
        externalSyncedAt := some env.now, externalError := none },
    { w with
      remote := response.2, calls := w.calls ++ [.add row.id row.text tags (buildMetadata row)] })

/-- `_send_to_supermemory_patch`; `docId` is `row.external_id`, which the caller checked. -/
def sendToSupermemoryPatch (client : MemoryClient R) (env : Env) (row : Memory) (docId : String)
    (contentChanged : Bool) (w : World R) : Memory × World R :=
  let content := if contentChanged then some row.text else none
  let response := client.patch w.remote docId content (buildMetadata row)
  (match response.1 with
    | .error err => { row with externalStatus := .unsynced, externalError := some err.name }
    | .ok _ =>
      { row with
        externalStatus := .synced, externalSyncedAt := some env.now, externalError := none },
    { w with
      remote := response.2, calls := w.calls ++ [.patch row.id docId content (buildMetadata row)] })

/-- The push of `update_memory` and of `sync_memory`: `add` without a remote id, else `patch`. -/
def pushRow (client : MemoryClient R) (env : Env) (row : Memory) (contentChanged : Bool)
    (w : World R) : Memory × World R :=
  match row.externalId with
  | none => sendToSupermemoryAdd client env row w
  | some docId => sendToSupermemoryPatch client env row docId contentChanged w

/-- The `client.delete` of `delete_memory`: `synced` on success, else `pending_delete`. -/
def sendDelete (client : MemoryClient R) (row : Memory) (docId : String) (w : World R) :
    Memory × World R :=
  let response := client.delete w.remote docId
  (match response.1 with
    | .error err => { row with externalStatus := .pendingDelete, externalError := some err.name }
    | .ok _ => { row with externalStatus := .synced, externalError := none },
    { w with remote := response.2, calls := w.calls ++ [.delete row.id docId] })

/-! ## `create_memory` -/

structure CreateArgs where
  text : Text
  eventDate : Date
  eventTz : Text
  eventTime : Option TimeOfDay
  locationLat : Option PyFloat
  locationLng : Option PyFloat
  locationLabel : Option Text
  idempotencyId : Option UUID

/-- The argument checks; returns the stripped text. -/
def checkCreate (pf : Platform) (args : CreateArgs) : Except ServiceError Text :=
  let text := pyStrip args.text
  if text.isEmpty then .error (.validation "text cannot be empty".toList)
  else match validateTz pf args.eventTz with
    | .error e => .error e
    | .ok _ =>
      match validateLocationPair args.locationLat args.locationLng with
      | .error e => .error e
      | .ok _ => .ok text

/-- `SELECT … WHERE id = … AND user_id = …`, tombstones included. -/
def findOwned (memories : MemoryTable) (userId memoryId : UUID) : Option Memory :=
  (memories.find memoryId).filter fun row => row.userId = userId

/-- The inserted row, with the column defaults. -/
def newRow (pf : Platform) (env : Env) (userId : UUID) (args : CreateArgs) (text : Text) :
    Memory where
  id := args.idempotencyId.getD env.newId
  userId := userId
  text := text
  eventDate := args.eventDate
  eventTime := args.eventTime
  eventTz := args.eventTz
  locationLat := args.locationLat
  locationLng := args.locationLng
  locationLabel := args.locationLabel
  contentHash := canonicalHash pf text
  externalId := none
  externalStatus := .unsynced
  externalSyncedAt := none
  externalError := none
  createdAt := env.dbNow
  deletedAt := none

/-- A live row of the user with the given content hash (`ux_memories_user_content_hash`). -/
def findByHash (memories : MemoryTable) (userId : UUID) (digest : Digest) : Option Memory :=
  memories.rows.find? fun row =>
    row.userId = userId && row.contentHash = digest && row.deletedAt.isNone

/-- What the driver or the database raises on the texts of the row. -/
def Memory.refused (pf : Platform) (row : Memory) : Option DbError :=
  pf.refused row.text row.eventTz row.locationLabel

/-- `pg_insert(…).on_conflict_do_nothing(…)`: `none` on a content-hash conflict; a refused text, the
CHECK constraints and the primary key still raise. -/
def insertOnConflictDoNothing (pf : Platform) (memories : MemoryTable) (row : Memory) :
    Except ServiceError (Option MemoryTable) :=
  match row.refused pf with
  | some e => .error (.raised e.exc)
  | none =>
    if !locationChecks row.locationLat row.locationLng then
      .error (.integrity "ck_memories_location")
    else if (findByHash memories row.userId row.contentHash).isSome then .ok none
    else match memories.insert? row with
      | some memories' => .ok (some memories')
      | none => .error (.integrity "memories_pkey")

/-- `create_memory`. -/
def createMemory (pf : Platform) (client : MemoryClient R) (env : Env) (userId : UUID)
    (args : CreateArgs) (w : World R) : Except ServiceError Memory × World R :=
  match checkCreate pf args with
  | .error e => (.error e, w)
  | .ok text =>
    -- layer-1 dedupe: the idempotency id, tombstones included
    match args.idempotencyId.bind (findOwned w.memories userId) with
    | some existing =>
      if existing.deletedAt.isSome then (.error (.idempotencyReused existing.id), w)
      else (.ok existing, w)
    | none =>
      let row := newRow pf env userId args text
      match insertOnConflictDoNothing pf w.memories row with
      | .error e => (.error e, w)
      | .ok none =>
        -- layer-2 dedupe: the live row with the same hash
        match findByHash w.memories userId row.contentHash with
        | some existing => (.ok existing, w)
        | none => (.error .noResultFound, w)
      | .ok (some memories) =>
        let (row', w') := sendToSupermemoryAdd client env row w
        (.ok row', { w' with memories := memories.put row' })

/-! ## `update_memory` -/

/-- `T | _UnsetType`. -/
inductive Patch (α : Type) where
  | unset
  | set (v : α)

/-- The value after the patch. -/
def Patch.apply {α : Type} : Patch α → α → α
  | .unset, old => old
  | .set v, _ => v

def Patch.isSet {α : Type} : Patch α → Bool
  | .unset => false
  | .set _ => true

structure UpdateArgs where
  text : Patch Text
  eventDate : Patch Date
  eventTime : Patch (Option TimeOfDay)
  eventTz : Patch Text
  locationLat : Patch (Option PyFloat)
  locationLng : Patch (Option PyFloat)
  locationLabel : Patch (Option Text)

def checkPatchTz (pf : Platform) : Patch Text → Except ServiceError Unit
  | .unset => .ok ()
  | .set tz => validateTz pf tz

/-- The argument checks of `update_memory` that come before the text. -/
def checkUpdate (pf : Platform) (row : Memory) (args : UpdateArgs) : Except ServiceError Unit :=
  match checkPatchTz pf args.eventTz with
  | .error e => .error e
  | .ok _ =>
    if args.locationLat.isSet || args.locationLng.isSet then
      validateLocationPair (args.locationLat.apply row.locationLat)
        (args.locationLng.apply row.locationLng)
    else .ok ()

/-- The text branch: the row with its new text and hash, and `text_changed`. -/
def patchText (pf : Platform) (row : Memory) : Patch Text → Except ServiceError (Memory × Bool)
  | .unset => .ok (row, false)
  | .set text =>
    let stripped := pyStrip text
    if stripped.isEmpty then .error (.validation "text cannot be empty".toList)
    else if stripped ≠ row.text then
      .ok ({ row with text := stripped, contentHash := canonicalHash pf stripped }, true)
    else .ok (row, false)

/-- The remaining columns. -/
def patchColumns (row : Memory) (args : UpdateArgs) : Memory :=
  { row with
    eventDate := args.eventDate.apply row.eventDate
    eventTime := args.eventTime.apply row.eventTime
    eventTz := args.eventTz.apply row.eventTz
    locationLat := args.locationLat.apply row.locationLat
    locationLng := args.locationLng.apply row.locationLng
    locationLabel := args.locationLabel.apply row.locationLabel }

/-- The row after the patch and `text_changed`, or the validation error. -/
def applyPatch (pf : Platform) (row : Memory) (args : UpdateArgs) :
    Except ServiceError (Memory × Bool) :=
  match checkUpdate pf row args with
  | .error e => .error e
  | .ok _ =>
    match patchText pf row args.text with
    | .error e => .error e
    | .ok (row', textChanged) => .ok (patchColumns row' args, textChanged)

def uxUserContentHash : String := "ux_memories_user_content_hash"

/-- `db.flush()` of a changed live row: a refused text, the CHECK constraints and the partial unique
index raise. -/
def flush (pf : Platform) (memories : MemoryTable) (row : Memory) :
    Except ServiceError MemoryTable :=
  match row.refused pf with
  | some e => .error (.raised e.exc)
  | none =>
    if !locationChecks row.locationLat row.locationLng then
      .error (.integrity "ck_memories_location")
    else if memories.rows.any fun other =>
        other.id != row.id && other.userId = row.userId && other.contentHash = row.contentHash &&
          other.deletedAt.isNone then
      .error (.integrity uxUserContentHash)
    else .ok (memories.put row)

/-- What `update_memory` raises when its flush does: the `except IntegrityError`. -/
def duplicateOr (textChanged : Bool) : ServiceError → ServiceError
  | .integrity constraint =>
    if textChanged && constraint == uxUserContentHash then
      .duplicate "another memory already has the same text".toList
    else .integrity constraint
  | e => e

/-- `update_memory`. -/
def updateMemory (pf : Platform) (client : MemoryClient R) (env : Env) (userId memoryId : UUID)
    (args : UpdateArgs) (w : World R) : Except ServiceError Memory × World R :=
  match (findOwned w.memories userId memoryId).filter fun row => row.deletedAt.isNone with
  | none => (.error (.notFound memoryId), w)
  | some row =>
    match applyPatch pf row args with
    | .error e => (.error e, w)
    | .ok (row', textChanged) =>
      match flush pf w.memories row' with
      | .error e => (.error (duplicateOr textChanged e), w)
      | .ok memories =>
        let (row'', w') := pushRow client env row' textChanged w
        (.ok row'', { w' with memories := memories.put row'' })

/-! ## `delete_memory` -/

/-- `delete_memory`. -/
def deleteMemory (client : MemoryClient R) (env : Env) (userId memoryId : UUID) (w : World R) :
    Except ServiceError Unit × World R :=
  match findOwned w.memories userId memoryId with
  | none => (.error (.notFound memoryId), w)
  | some row =>
    if row.deletedAt.isSome then (.ok (), w)
    else
      let row' := { row with deletedAt := some env.now }
      match row.externalId with
      | none => (.ok (), { w with memories := w.memories.put row' })
      | some docId =>
        let (row'', w') := sendDelete client row' docId w
        (.ok (), { w' with memories := w.memories.put row'' })

/-! ## `sync_memory` -/

/-- The `client.delete` of `sync_memory`: the row stays `pending_delete` on failure. -/
def retryDelete (client : MemoryClient R) (row : Memory) (docId : String) (w : World R) :
    Memory × World R :=
  let response := client.delete w.remote docId
  (match response.1 with
    | .error err => { row with externalError := some err.name }
    | .ok _ => { row with externalStatus := .synced, externalError := none },
    { w with remote := response.2, calls := w.calls ++ [.delete row.id docId] })

/-- `sync_memory`. -/
def syncMemory (client : MemoryClient R) (env : Env) (userId memoryId : UUID) (w : World R) :
    Except ServiceError Memory × World R :=
  match findOwned w.memories userId memoryId with
  | none => (.error (.notFound memoryId), w)
  | some row =>
    match row.externalStatus with
    | .synced => (.ok row, w)
    | .unsynced =>
      let (row', w') := pushRow client env row true w
      (.ok row', { w' with memories := w.memories.put row' })
    | .pendingDelete =>
      match row.externalId with
      | none =>
        let row' := { row with externalStatus := .synced, externalError := none }
        (.ok row', { w with memories := w.memories.put row' })
      | some docId =>
        let (row', w') := retryDelete client row docId w
        (.ok row', { w' with memories := w.memories.put row' })

/-! ## Requests -/

inductive Request where
  | create (userId : UUID) (args : CreateArgs)
  | update (userId memoryId : UUID) (args : UpdateArgs)
  | delete (userId memoryId : UUID)
  | sync (userId memoryId : UUID)

/-- The committed world when a request ends by writing the row of `p` into `memories`. -/
def commitRow (memories : MemoryTable) (p : Memory × World R) : World R :=
  { p.2 with memories := memories.put p.1 }

/-- The world after one request, whatever it returned or raised. -/
def handle (pf : Platform) (client : MemoryClient R) (env : Env) (w : World R) :
    Request → World R
  | .create userId args => (createMemory pf client env userId args w).2
  | .update userId memoryId args => (updateMemory pf client env userId memoryId args w).2
  | .delete userId memoryId => (deleteMemory client env userId memoryId w).2
  | .sync userId memoryId => (syncMemory client env userId memoryId w).2

/-! ## What the parts of a request do -/

/-- What the text branch does, when it accepts: it leaves the row, or stores a new text, stripped
and not empty, with its hash. -/
theorem patchText_cases {pf : Platform} {row row' : Memory} {text : Patch Text} {changed : Bool}
    (h : patchText pf row text = .ok (row', changed)) :
    (row' = row ∧ changed = false ∧ ∀ new, text = .set new → pyStrip new = row.text) ∨
    ∃ new, text = .set new ∧ pyStrip new ≠ [] ∧ pyStrip new ≠ row.text ∧ changed = true ∧
      row' = { row with text := pyStrip new, contentHash := canonicalHash pf (pyStrip new) } := by
  cases text with
  | unset =>
    cases h
    exact .inl ⟨rfl, rfl, nofun⟩
  | set new =>
    simp only [patchText] at h
    split at h
    · cases h
    rename_i hne
    split at h
    · rename_i hnew
      cases h
      exact .inr ⟨new, rfl, by simpa using hne, hnew, rfl, rfl⟩
    · rename_i hsame
      cases h
      refine .inl ⟨rfl, rfl, fun new' hset => ?_⟩
      cases hset
      exact not_not.1 hsame

/-- An accepted patch passed the checks, and is the text branch and then the other columns. -/
theorem applyPatch_cases {pf : Platform} {row row' : Memory} {args : UpdateArgs} {changed : Bool}
    (h : applyPatch pf row args = .ok (row', changed)) :
    checkUpdate pf row args = .ok () ∧ ∃ row₁,
      patchText pf row args.text = .ok (row₁, changed) ∧ row' = patchColumns row₁ args := by
  unfold applyPatch at h
  split at h
  · cases h
  rename_i hcheck
  split at h
  · cases h
  rename_i row₁ changed₁ htext
  cases h
  exact ⟨hcheck, row₁, htext, rfl⟩

/-- What `applyPatch` changes, when it accepts: the user columns only, and the text and hash
together, exactly when `text_changed`. -/
theorem applyPatch_ok {pf : Platform} {row row' : Memory} {args : UpdateArgs} {changed : Bool}
    (h : applyPatch pf row args = .ok (row', changed)) :
    ∃ text hash, row' = patchColumns { row with text := text, contentHash := hash } args ∧
      (changed = false → text = row.text ∧ hash = row.contentHash) ∧
      (changed = true → text ≠ row.text ∧ hash = canonicalHash pf text) := by
  obtain ⟨-, row₁, htext, rfl⟩ := applyPatch_cases h
  obtain ⟨rfl, rfl, -⟩ | ⟨new, -, -, hne, rfl, rfl⟩ := patchText_cases htext
  · exact ⟨row₁.text, row₁.contentHash, rfl, fun _ => ⟨rfl, rfl⟩, nofun⟩
  · exact ⟨_, _, rfl, nofun, fun _ => ⟨hne, rfl⟩⟩

theorem flush_eq_ok {pf : Platform} {memories memories' : MemoryTable} {row : Memory} :
    flush pf memories row = .ok memories' ↔
      row.refused pf = none ∧ locationChecks row.locationLat row.locationLng = true ∧
      (∀ other ∈ memories.rows, other.id ≠ row.id → other.live → other.userId = row.userId →
        other.contentHash ≠ row.contentHash) ∧
      memories' = memories.put row := by
  unfold flush
  cases hrefused : row.refused pf with
  | some e => exact iff_of_false nofun fun h => nomatch h.1
  | none =>
    dsimp only
    split
    · rename_i hloc
      have hloc : locationChecks row.locationLat row.locationLng = false := by simpa using hloc
      simp [hloc]
    rename_i hloc
    have hloc : locationChecks row.locationLat row.locationLng = true := by simpa using hloc
    split
    · rename_i hany
      obtain ⟨other, hmem, hother⟩ := List.any_eq_true.1 hany
      simp only [Bool.and_eq_true, bne_iff_ne, decide_eq_true_eq, Option.isNone_iff_eq_none]
        at hother
      obtain ⟨⟨⟨hne, huser⟩, hhash⟩, hlive⟩ := hother
      exact iff_of_false nofun fun h => h.2.2.1 other hmem hne hlive huser hhash
    · rename_i hany
      have huniq : ∀ other ∈ memories.rows, other.id ≠ row.id → other.live →
          other.userId = row.userId → other.contentHash ≠ row.contentHash := by
        intro other hmem hne hlive huser hhash
        refine hany (List.any_eq_true.2 ⟨other, hmem, ?_⟩)
        simp [hne, huser, hhash, hlive]
      constructor
      · intro h
        cases h
        exact ⟨rfl, hloc, huniq, rfl⟩
      · rintro ⟨-, -, -, rfl⟩
        rfl

theorem flush_ok {pf : Platform} {memories memories' : MemoryTable} {row : Memory}
    (h : flush pf memories row = .ok memories') : memories' = memories.put row :=
  (flush_eq_ok.1 h).2.2.2

/-- A flush raises the refusal of a text, or an `IntegrityError`. -/
theorem flush_error {pf : Platform} {memories : MemoryTable} {row : Memory} {e : ServiceError}
    (h : flush pf memories row = .error e) :
    (∃ d : DbError, e = .raised d.exc) ∨ ∃ constraint, e = .integrity constraint := by
  unfold flush at h
  split at h
  · cases h
    exact Or.inl ⟨_, rfl⟩
  split at h
  · cases h
    exact Or.inr ⟨_, rfl⟩
  split at h
  · cases h
    exact Or.inr ⟨_, rfl⟩
  · cases h

/-- The insert of a row that is not refused and that passes the CHECK constraints. -/
theorem insertOnConflictDoNothing_located {pf : Platform} (memories : MemoryTable) {row : Memory}
    (hrefused : row.refused pf = none)
    (h : locationChecks row.locationLat row.locationLng = true) :
    insertOnConflictDoNothing pf memories row =
      if (findByHash memories row.userId row.contentHash).isSome then .ok none
      else match memories.insert? row with
        | some memories' => .ok (some memories')
        | none => .error (.integrity "memories_pkey") := by
  simp [insertOnConflictDoNothing, hrefused, h]

theorem insertOnConflictDoNothing_inserted {pf : Platform} {memories memories' : MemoryTable}
    {row : Memory} (h : insertOnConflictDoNothing pf memories row = .ok (some memories')) :
    findByHash memories row.userId row.contentHash = none ∧
      memories.insert? row = some memories' := by
  unfold insertOnConflictDoNothing at h
  split at h
  · cases h
  split at h
  · cases h
  split at h
  · cases h
  rename_i hhash
  split at h
  · rename_i inserted hinsert
    cases h
    exact ⟨Option.not_isSome_iff_eq_none.1 hhash, hinsert⟩
  · cases h

/-- Accepted arguments of a create pass the coordinate CHECKs. -/
theorem checkCreate_located {pf : Platform} {args : CreateArgs} {text : Text}
    (h : checkCreate pf args = .ok text) :
    locationChecks args.locationLat args.locationLng = true := by
  unfold checkCreate at h
  simp only at h
  split at h
  · cases h
  split at h
  · cases h
  split at h
  · cases h
  rename_i hpair
  exact validateLocationPair_checks hpair

/-- A patch leaves the keys of the row. -/
theorem applyPatch_ids {pf : Platform} {row row' : Memory} {args : UpdateArgs} {changed : Bool}
    (h : applyPatch pf row args = .ok (row', changed)) :
    row'.id = row.id ∧ row'.userId = row.userId ∧ row'.externalId = row.externalId := by
  obtain ⟨text, hash, rfl, -, -⟩ := applyPatch_ok h
  exact ⟨rfl, rfl, rfl⟩

/-- An accepted patch leaves coordinates that pass the CHECKs. -/
theorem applyPatch_located {pf : Platform} {row row' : Memory} {args : UpdateArgs}
    {changed : Bool} (h : applyPatch pf row args = .ok (row', changed))
    (hrow : locationChecks row.locationLat row.locationLng = true) :
    locationChecks row'.locationLat row'.locationLng = true := by
  obtain ⟨hcheck, -⟩ := applyPatch_cases h
  obtain ⟨text, hash, rfl, _, _⟩ := applyPatch_ok h
  unfold checkUpdate at hcheck
  split at hcheck
  · cases hcheck
  split at hcheck
  · exact validateLocationPair_checks hcheck
  · rename_i hset
    cases hlat : args.locationLat <;> cases hlng : args.locationLng <;>
      simp_all [patchColumns, Patch.isSet, Patch.apply]

@[simp] theorem sendToSupermemoryAdd_calls (client : MemoryClient R) (env : Env) (row : Memory)
    (w : World R) : (sendToSupermemoryAdd client env row w).2.calls =
      w.calls ++ [.add row.id row.text [containerTag row.userId] (buildMetadata row)] := rfl

@[simp] theorem sendToSupermemoryAdd_id (client : MemoryClient R) (env : Env) (row : Memory)
    (w : World R) : (sendToSupermemoryAdd client env row w).1.id = row.id := by
  simp only [sendToSupermemoryAdd]; split <;> rfl

@[simp] theorem sendToSupermemoryAdd_userId (client : MemoryClient R) (env : Env)
    (row : Memory) (w : World R) :
    (sendToSupermemoryAdd client env row w).1.userId = row.userId := by
  simp only [sendToSupermemoryAdd]; split <;> rfl

@[simp] theorem sendToSupermemoryPatch_calls (client : MemoryClient R) (env : Env) (row : Memory)
    (docId : String) (changed : Bool) (w : World R) :
    (sendToSupermemoryPatch client env row docId changed w).2.calls =
      w.calls ++ [.patch row.id docId (if changed then some row.text else none)
        (buildMetadata row)] := rfl

@[simp] theorem sendToSupermemoryPatch_id (client : MemoryClient R) (env : Env) (row : Memory)
    (docId : String) (changed : Bool) (w : World R) :
    (sendToSupermemoryPatch client env row docId changed w).1.id = row.id := by
  simp only [sendToSupermemoryPatch]; split <;> rfl

@[simp] theorem pushRow_id (client : MemoryClient R) (env : Env) (row : Memory) (changed : Bool)
    (w : World R) : (pushRow client env row changed w).1.id = row.id := by
  unfold pushRow; split <;> simp

@[simp] theorem sendDelete_id (client : MemoryClient R) (row : Memory) (docId : String)
    (w : World R) : (sendDelete client row docId w).1.id = row.id := by
  simp only [sendDelete]; split <;> rfl

@[simp] theorem sendDelete_calls (client : MemoryClient R) (row : Memory) (docId : String)
    (w : World R) : (sendDelete client row docId w).2.calls =
      w.calls ++ [.delete row.id docId] := rfl

@[simp] theorem retryDelete_id (client : MemoryClient R) (row : Memory) (docId : String)
    (w : World R) : (retryDelete client row docId w).1.id = row.id := by
  simp only [retryDelete]; split <;> rfl

@[simp] theorem retryDelete_calls (client : MemoryClient R) (row : Memory) (docId : String)
    (w : World R) : (retryDelete client row docId w).2.calls =
      w.calls ++ [.delete row.id docId] := rfl

@[simp] theorem commitRow_calls (memories : MemoryTable) (p : Memory × World R) :
    (commitRow memories p).calls = p.2.calls := rfl

@[simp] theorem commitRow_remote (memories : MemoryTable) (p : Memory × World R) :
    (commitRow memories p).remote = p.2.remote := rfl

@[simp] theorem commitRow_memories (memories : MemoryTable) (p : Memory × World R) :
    (commitRow memories p).memories = memories.put p.1 := rfl

/-! ## What one request can do -/

/-- Everything a request can do to the world, with the guards it passed. -/
inductive Effect (pf : Platform) (client : MemoryClient R) (env : Env) (w : World R) :
    Request → World R → Prop
  /-- It raised, found a duplicate or had nothing to do. -/
  | unchanged (req : Request) : Effect pf client env w req w
  | created {userId : UUID} {args : CreateArgs} {text : Text} {memories : MemoryTable}
      (hcheck : checkCreate pf args = .ok text)
      (hhash : findByHash w.memories userId (canonicalHash pf text) = none)
      (hinsert : w.memories.insert? (newRow pf env userId args text) = some memories) :
      Effect pf client env w (.create userId args)
        (commitRow memories (sendToSupermemoryAdd client env (newRow pf env userId args text) w))
  | updated {args : UpdateArgs} {row row' : Memory} {changed : Bool} {memories : MemoryTable}
      (hrow : row ∈ w.memories.rows) (hlive : row.live)
      (hpatch : applyPatch pf row args = .ok (row', changed))
      (hflush : flush pf w.memories row' = .ok memories) :
      Effect pf client env w (.update row.userId row.id args)
        (commitRow memories (pushRow client env row' changed w))
  | deletedLocally {row : Memory} (hrow : row ∈ w.memories.rows) (hlive : row.live)
      (hext : row.externalId = none) :
      Effect pf client env w (.delete row.userId row.id)
        (commitRow w.memories ({ row with deletedAt := some env.now }, w))
  | deleted {row : Memory} {docId : String} (hrow : row ∈ w.memories.rows) (hlive : row.live)
      (hext : row.externalId = some docId) :
      Effect pf client env w (.delete row.userId row.id)
        (commitRow w.memories (sendDelete client { row with deletedAt := some env.now } docId w))
  | synced {row : Memory} (hrow : row ∈ w.memories.rows)
      (hstatus : row.externalStatus = .unsynced) :
      Effect pf client env w (.sync row.userId row.id)
        (commitRow w.memories (pushRow client env row true w))
  | settled {row : Memory} (hrow : row ∈ w.memories.rows)
      (hstatus : row.externalStatus = .pendingDelete) (hext : row.externalId = none) :
      Effect pf client env w (.sync row.userId row.id)
        (commitRow w.memories ({ row with externalStatus := .synced, externalError := none }, w))
  | retried {row : Memory} {docId : String} (hrow : row ∈ w.memories.rows)
      (hstatus : row.externalStatus = .pendingDelete) (hext : row.externalId = some docId) :
      Effect pf client env w (.sync row.userId row.id)
        (commitRow w.memories (retryDelete client row docId w))

theorem findOwned_eq_some {memories : MemoryTable} {userId memoryId : UUID} {row : Memory} :
    findOwned memories userId memoryId = some row ↔
      row ∈ memories.rows ∧ row.id = memoryId ∧ row.userId = userId := by
  simp [findOwned, Option.filter_eq_some_iff, Table.find_eq_some, and_assoc]

theorem createMemory_effect (pf : Platform) (client : MemoryClient R) (env : Env) (userId : UUID)
    (args : CreateArgs) (w : World R) :
    Effect pf client env w (.create userId args) (createMemory pf client env userId args w).2 := by
  unfold createMemory
  split
  · exact .unchanged _
  rename_i text hcheck
  split
  · split <;> exact .unchanged _
  simp only
  split
  · exact .unchanged _
  · split <;> exact .unchanged _
  · rename_i memories hins
    obtain ⟨hhash, hinsert⟩ := insertOnConflictDoNothing_inserted hins
    exact .created hcheck hhash hinsert

theorem updateMemory_effect (pf : Platform) (client : MemoryClient R) (env : Env)
    (userId memoryId : UUID) (args : UpdateArgs) (w : World R) :
    Effect pf client env w (.update userId memoryId args)
      (updateMemory pf client env userId memoryId args w).2 := by
  unfold updateMemory
  split
  · exact .unchanged _
  rename_i row hfind
  obtain ⟨hfound, hlive⟩ := Option.filter_eq_some_iff.1 hfind
  obtain ⟨hrow, rfl, rfl⟩ := findOwned_eq_some.1 hfound
  split
  · exact .unchanged _
  rename_i row' changed hpatch
  split
  · exact .unchanged _
  · rename_i memories hflush
    exact .updated hrow (by simpa using hlive) hpatch hflush

theorem deleteMemory_effect (pf : Platform) (client : MemoryClient R) (env : Env)
    (userId memoryId : UUID) (w : World R) :
    Effect pf client env w (.delete userId memoryId)
      (deleteMemory client env userId memoryId w).2 := by
  unfold deleteMemory
  split
  · exact .unchanged _
  rename_i row hfound
  obtain ⟨hrow, rfl, rfl⟩ := findOwned_eq_some.1 hfound
  split
  · exact .unchanged _
  rename_i hlive
  simp only
  split
  · rename_i hext
    exact .deletedLocally hrow (by simpa using hlive) hext
  · rename_i docId hext
    exact .deleted hrow (by simpa using hlive) hext

theorem syncMemory_effect (pf : Platform) (client : MemoryClient R) (env : Env)
    (userId memoryId : UUID) (w : World R) :
    Effect pf client env w (.sync userId memoryId) (syncMemory client env userId memoryId w).2 := by
  unfold syncMemory
  split
  · exact .unchanged _
  rename_i row hfound
  obtain ⟨hrow, rfl, rfl⟩ := findOwned_eq_some.1 hfound
  split
  · exact .unchanged _
  · rename_i hstatus
    exact .synced hrow hstatus
  · rename_i hstatus
    split
    · rename_i hext
      exact .settled hrow hstatus hext
    · rename_i docId hext
      exact .retried hrow hstatus hext

/-- **Inversion of one request.** -/
theorem request_effect (pf : Platform) (client : MemoryClient R) (env : Env) (w : World R)
    (req : Request) : Effect pf client env w req (handle pf client env w req) := by
  cases req with
  | create userId args => exact createMemory_effect pf client env userId args w
  | update userId memoryId args => exact updateMemory_effect pf client env userId memoryId args w
  | delete userId memoryId => exact deleteMemory_effect pf client env userId memoryId w
  | sync userId memoryId => exact syncMemory_effect pf client env userId memoryId w

end MeJournal
