import MeJournal.Memory.RemoteMirror

/-!
# Two requests on one row at the same time

`update_memory` and `delete_memory` as they reach the database: SELECT, flush, client call, and
the flush and COMMIT of `db.commit()`, each one move, under READ COMMITTED.  A SELECT reads the
committed row; an `UPDATE` writes the columns in which the request's own copy differs from what
it loaded, over the newest version of the row, and keeps the row locked until the COMMIT; the
metadata sent to the client is that of the request's copy.

* `editMove` — one move of one of the two requests; an interleaving is a run of it.
* `Agrees` — what row and document should be when both have finished; `StalePatch` — the move
  that breaks it.
-/

namespace MeJournal

/-! ## The row in the database -/

/-- `UPDATE memories SET <changed columns> WHERE id = …`, over the version `stored`. -/
def writeColumns (loaded current stored : Memory) : Memory :=
  { stored with
    text := writeColumn loaded.text current.text stored.text
    eventDate := writeColumn loaded.eventDate current.eventDate stored.eventDate
    eventTime := writeColumn loaded.eventTime current.eventTime stored.eventTime
    eventTz := writeColumn loaded.eventTz current.eventTz stored.eventTz
    locationLat := writeColumn loaded.locationLat current.locationLat stored.locationLat
    locationLng := writeColumn loaded.locationLng current.locationLng stored.locationLng
    locationLabel := writeColumn loaded.locationLabel current.locationLabel stored.locationLabel
    contentHash := writeColumn loaded.contentHash current.contentHash stored.contentHash
    externalId := writeColumn loaded.externalId current.externalId stored.externalId
    externalStatus := writeColumn loaded.externalStatus current.externalStatus
      stored.externalStatus
    externalSyncedAt := writeColumn loaded.externalSyncedAt current.externalSyncedAt
      stored.externalSyncedAt
    externalError := writeColumn loaded.externalError current.externalError stored.externalError
    deletedAt := writeColumn loaded.deletedAt current.deletedAt stored.deletedAt }

theorem writeColumns_self (loaded stored : Memory) :
    writeColumns loaded loaded stored = stored := by
  simp [writeColumns]

/-- Over the loaded version the `UPDATE` leaves the request's copy. -/
theorem writeColumns_loaded {loaded current : Memory} (hid : current.id = loaded.id)
    (huser : current.userId = loaded.userId) (hcreated : current.createdAt = loaded.createdAt) :
    writeColumns loaded current loaded = current := by
  cases current
  simp_all [writeColumns]

/-- What the database accepts among the `others` of the table: the texts, the CHECK constraints and
the partial unique index. -/
def admits (pf : Platform) (others : List Memory) (row : Memory) : Bool :=
  (row.refused pf).isNone && locationChecks row.locationLat row.locationLng &&
    !(row.deletedAt.isNone && others.any fun other =>
      other.userId = row.userId && other.contentHash = row.contentHash && other.deletedAt.isNone)

/-! ## Requests -/

inductive EditRequest where
  | update (args : UpdateArgs)
  | delete

/-- How far a request is, with the copies of the row it works on. -/
inductive EditPc where
  /-- Before the SELECT. -/
  | requested (req : EditRequest)
  /-- An update that passed its checks, before `db.flush()`. -/
  | patched (loaded current : Memory) (textChanged : Bool)
  /-- An update before its client call. -/
  | flushed (row : Memory) (textChanged : Bool)
  /-- A delete before its client call. -/
  | marked (loaded current : Memory)
  /-- Before the flush of `db.commit()`. -/
  | called (loaded current : Memory)
  /-- Before the COMMIT. -/
  | closing
  /-- Returned or raised. -/
  | finished

/-- The row, its documents and the two requests on it. -/
structure Editing where
  /-- The committed version. -/
  stored : Memory
  /-- The version written by an open transaction, which holds the row lock. -/
  pending : Option (Bool × Memory)
  docs : String → Option Doc
  pc : Bool → EditPc

/-- The version the next `UPDATE` writes over. -/
def Editing.newest (s : Editing) : Memory :=
  match s.pending with
  | some (_, row) => row
  | none => s.stored

/-- The next move of one request, with what it reads from outside. -/
structure EditTurn where
  side : Bool
  env : Env
  fresh : String

def Editing.goto (s : Editing) (side : Bool) (pc : EditPc) : Editing :=
  { s with pc := Function.update s.pc side pc }

/-- How a flush ends. -/
inductive FlushEnd where
  /-- The other request holds the row lock. -/
  | blocked
  /-- An `IntegrityError`, or the refusal of a text. -/
  | violated
  | ok (pending : Option (Bool × Memory))

/-- The flush of a request's changed columns; without changes no statement is sent. -/
def Editing.flush (pf : Platform) (others : List Memory) (s : Editing) (side : Bool)
    (loaded current : Memory) : FlushEnd :=
  if current = loaded then .ok s.pending
  else if s.pending.any fun version => version.1 != side then .blocked
  else
    let row := writeColumns loaded current s.newest
    if admits pf others row then .ok (some (side, row)) else .violated

/-- The request flushes and goes on to `next`; if the flush raises, its session is rolled back. -/
def Editing.flushTo (pf : Platform) (others : List Memory) (s : Editing) (side : Bool)
    (loaded current : Memory) (next : EditPc) : Editing :=
  match s.flush pf others side loaded current with
  | .blocked => s
  | .violated =>
    { s.goto side .finished with pending := s.pending.filter fun version => version.1 != side }
  | .ok pending => { s.goto side next with pending := pending }

/-- The documents in front of a client whose next call succeeds. -/
def Editing.world (s : Editing) (turn : EditTurn) : World Backend :=
  ⟨Table.empty, ⟨s.docs, .ok turn.fresh⟩, []⟩

/-- COMMIT. -/
def Editing.commit (s : Editing) (side : Bool) : Editing :=
  match s.pending with
  | some (owner, row) =>
    if owner = side then { s.goto side .finished with stored := row, pending := none }
    else s.goto side .finished
  | none => s.goto side .finished

/-- One move; a blocked or finished request changes nothing. -/
def editMove (pf : Platform) (others : List Memory) (s : Editing) (turn : EditTurn) : Editing :=
  match s.pc turn.side with
  | .requested (.update args) =>
    if s.stored.deletedAt.isSome then s.goto turn.side .finished
    else match applyPatch pf s.stored args with
      | .error _ => s.goto turn.side .finished
      | .ok (row, textChanged) => s.goto turn.side (.patched s.stored row textChanged)
  | .requested .delete =>
    if s.stored.deletedAt.isSome then s.goto turn.side .finished
    else s.goto turn.side (.marked s.stored { s.stored with deletedAt := some turn.env.now })
  | .patched loaded current textChanged =>
    s.flushTo pf others turn.side loaded current (.flushed current textChanged)
  | .flushed row textChanged =>
    let (row', w) := pushRow backend turn.env row textChanged (s.world turn)
    { s.goto turn.side (.called row row') with docs := w.remote.docs }
  | .marked loaded current =>
    match current.externalId with
    | none => s.goto turn.side (.called loaded current)
    | some docId =>
      let (row, w) := sendDelete backend current docId (s.world turn)
      { s.goto turn.side (.called loaded row) with docs := w.remote.docs }
  | .called loaded current => s.flushTo pf others turn.side loaded current .closing
  | .closing => s.commit turn.side
  | .finished => s

/-- Two requests come in for the committed `row`. -/
def editStart (row : Memory) (docs : String → Option Doc) (first second : EditRequest) : Editing :=
  ⟨row, none, docs, fun side => .requested (if side then second else first)⟩

/-! ## The property -/

def BothFinished (s : Editing) : Prop := ∀ side, s.pc side = .finished

/-- A live `synced` row has its text and metadata remote; a deleted row has no document and is
not `unsynced`. -/
def Agrees (s : Editing) : Prop :=
  s.stored.Mirrored s.docs ∧
    (¬ s.stored.live →
      s.stored.externalId.bind s.docs = none ∧ s.stored.externalStatus ≠ .unsynced)

/-- Flushed, and about to make its client call. -/
def EditPc.pushing : EditPc → Bool
  | .flushed .. => true
  | _ => false

/-- The move patches a document that is gone, or patches metadata that is not the newest
version's while the other request is not about to push. -/
def StalePatch (s : Editing) (turn : EditTurn) : Prop :=
  ∃ row textChanged, s.pc turn.side = .flushed row textChanged ∧
    (row.externalId.bind s.docs = none ∨
      ((s.pc (!turn.side)).pushing = false ∧ buildMetadata row ≠ buildMetadata s.newest))

end MeJournal
