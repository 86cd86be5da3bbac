import MeJournal.Memory.SyncState

/-!
# What `synced` says about the remote index

Runs of the memory service against the map `backend`, with the outcome of every client call
chosen by the run.  A live row marked `synced` should have its own text and metadata at its
`external_id`.

* `RemoteInv` — documents of rows the service still refers to exist and belong to one row
  each; live rows of a user have distinct hashes; coordinates pass the CHECK constraints.
  `remoteInv_mirrorStep` keeps it over one request.
* `mirrored_states_iff` — every reached state is mirrored exactly when no update of the run
  leaves the text alone, reaches a document whose content is not that text, and succeeds.
-/

namespace MeJournal

/-! ## Events -/

/-- One request and the outcome of the client call it may make. -/
structure MirrorEvent where
  env : Env
  req : Request
  outcome : Outcome

def World.expecting (w : World Backend) (outcome : Outcome) : World Backend :=
  { w with remote := { w.remote with next := outcome } }

def mirrorStep (pf : Platform) (w : World Backend) (e : MirrorEvent) : World Backend :=
  handle pf backend e.env (w.expecting e.outcome) e.req

/-- No memories yet, any documents in the index. -/
def mirrorStart (docs : String → Option Doc) : World Backend :=
  initialWorld ⟨docs, .err .transient⟩

/-! ## The property -/

/-- A live `synced` row has an `external_id`, and the document there has its text and its
metadata. -/
def Memory.Mirrored (docs : String → Option Doc) (m : Memory) : Prop :=
  m.live → m.externalStatus = .synced →
    m.externalId.bind docs = some ⟨m.text, buildMetadata m⟩

def Mirrored (w : World Backend) : Prop := ∀ m ∈ w.memories.rows, m.Mirrored w.remote.docs

instance (docs : String → Option Doc) (m : Memory) : Decidable (m.Mirrored docs) :=
  inferInstanceAs (Decidable (m.live → _ → _))

instance (w : World Backend) : Decidable (Mirrored w) :=
  inferInstanceAs (Decidable (∀ m ∈ w.memories.rows, _))

/-- The request updates a live row but not its text, the database accepts the row, the client call
succeeds, and the row's document holds other content than the row. -/
def MasksStaleContent (pf : Platform) (w : World Backend) (req : Request) : Prop :=
  ∃ row ∈ w.memories.rows, ∃ args row' fresh docId doc,
    req = .update row.userId row.id args ∧ w.remote.next = .ok fresh ∧ row.live ∧
      applyPatch pf row args = .ok (row', false) ∧ row'.refused pf = none ∧
      row.externalId = some docId ∧ w.remote.docs docId = some doc ∧ doc.content ≠ row.text

/-! ## Client calls on the map -/

/-- How a push ends: the row, and the documents. -/
inductive PushEnd (row : Memory) (changed : Bool) (b : Backend) :
    Memory → (String → Option Doc) → Prop
  /-- The outcome was an error, the patched document is absent, or the offered id is taken. -/
  | failed (error : String)
      (why : ∀ fresh docId doc, b.next = .ok fresh → row.externalId = some docId →
        b.docs docId ≠ some doc) :
      PushEnd row changed b { row with externalStatus := .unsynced, externalError := some error }
        b.docs
  | added {docId : String} (at_ : Time) (hext : row.externalId = none)
      (hfresh : b.docs docId = none) :
      PushEnd row changed b
        { row with
          externalId := some docId, externalStatus := .synced,
          externalSyncedAt := some at_, externalError := none }
        (setDoc b.docs docId (some ⟨row.text, buildMetadata row⟩))
  | patched {docId : String} {doc : Doc} (at_ : Time) (hnext : ∃ fresh, b.next = .ok fresh)
      (hext : row.externalId = some docId) (hdoc : b.docs docId = some doc) :
      PushEnd row changed b
        { row with
          externalStatus := .synced, externalSyncedAt := some at_, externalError := none }
        (setDoc b.docs docId
          (some ⟨if changed then row.text else doc.content, buildMetadata row⟩))

theorem pushRow_end (env : Env) (row : Memory) (changed : Bool) (w : World Backend) :
    PushEnd row changed w.remote (pushRow backend env row changed w).1
      (pushRow backend env row changed w).2.remote.docs := by
  unfold pushRow
  cases hext : row.externalId with
  | none =>
    have hwhy : ∀ fresh docId doc, w.remote.next = .ok fresh → row.externalId = some docId →
        w.remote.docs docId ≠ some doc := by
      simp [hext]
    simp only [sendToSupermemoryAdd, backend]
    cases hnext : w.remote.next with
    | err e => exact .failed _ hwhy
    | ok fresh =>
      cases hdoc : w.remote.docs fresh with
      | some doc =>
        simp only [hdoc, Option.isSome_some, if_true]
        exact .failed _ hwhy
      | none =>
        simp only [hdoc, Option.isSome_none, Bool.false_eq_true, if_false]
        exact .added env.now hext hdoc
  | some docId =>
    simp only [sendToSupermemoryPatch, backend]
    cases hnext : w.remote.next with
    | err e => exact .failed _ (by simp [hnext])
    | ok fresh =>
      simp only
      cases hdoc : w.remote.docs docId with
      | none =>
        refine .failed _ fun _ d doc _ hd hsome => ?_
        cases hext.symm.trans hd
        simp [hdoc] at hsome
      | some doc =>
        cases changed <;> exact .patched env.now ⟨fresh, hnext⟩ hext hdoc

/-- How a `client.delete` ends: the error it reports, if any, and the documents. -/
inductive DeleteEnd (docId : String) (docs : String → Option Doc) :
    Option String → (String → Option Doc) → Prop
  | failed (error : String) : DeleteEnd docId docs (some error) docs
  | removed : DeleteEnd docId docs none (setDoc docs docId none)

theorem sendDelete_end (row : Memory) (docId : String) (w : World Backend) :
    ∃ error docs, DeleteEnd docId w.remote.docs error docs ∧
      (sendDelete backend row docId w).2.remote.docs = docs ∧
      (sendDelete backend row docId w).1 =
        { row with
          externalStatus := if error.isSome then .pendingDelete else .synced,
          externalError := error } := by
  simp only [sendDelete, backend]
  cases hnext : w.remote.next with
  | err e => exact ⟨_, _, .failed e.name, rfl, rfl⟩
  | ok fresh => exact ⟨_, _, .removed, rfl, rfl⟩

theorem retryDelete_end (row : Memory) (docId : String) (w : World Backend) :
    ∃ error docs, DeleteEnd docId w.remote.docs error docs ∧
      (retryDelete backend row docId w).2.remote.docs = docs ∧
      (retryDelete backend row docId w).1 =
        { row with
          externalStatus := if error.isSome then row.externalStatus else .synced,
          externalError := error } := by
  simp only [retryDelete, backend]
  cases hnext : w.remote.next with
  | err e => exact ⟨_, _, .failed e.name, rfl, rfl⟩
  | ok fresh => exact ⟨_, _, .removed, rfl, rfl⟩

/-! ## The invariant -/

/-- The service still refers to the document: the row is live, or its delete is pending. -/
def Memory.Holds (m : Memory) (docId : String) : Prop :=
  m.externalId = some docId ∧ (m.live ∨ m.externalStatus = .pendingDelete)

structure RemoteInv (w : World Backend) : Prop where
  sync : SyncInv w
  stored : ∀ m ∈ w.memories.rows, ∀ d, m.Holds d → w.remote.docs d ≠ none
  apart : ∀ m ∈ w.memories.rows, ∀ n ∈ w.memories.rows, ∀ d, m.Holds d → n.Holds d → m.id = n.id
  hashes : ∀ m ∈ w.memories.rows, ∀ n ∈ w.memories.rows, m.live → n.live →
    m.userId = n.userId → m.contentHash = n.contentHash → m.id = n.id
  located : ∀ m ∈ w.memories.rows, locationChecks m.locationLat m.locationLng = true

/-- From `w` to `w'` one row became `new`, or was inserted as `new`; the documents held by
the other rows are untouched. -/
structure RowChange (w w' : World Backend) (new : Memory) : Prop where
  rows : ∀ m ∈ w'.memories.rows, m = new ∨ (m ∈ w.memories.rows ∧ m.id ≠ new.id)
  written : new ∈ w'.memories.rows
  docs : ∀ m ∈ w.memories.rows, m.id ≠ new.id → ∀ d, m.Holds d →
    w'.remote.docs d = w.remote.docs d

/-- What `new` must satisfy for the invariant. -/
structure RowFits (w w' : World Backend) (new : Memory) : Prop where
  stored : ∀ d, new.Holds d → w'.remote.docs d ≠ none
  apart : ∀ d, new.Holds d → ∀ n ∈ w.memories.rows, n.id ≠ new.id → ¬ n.Holds d
  hashes : new.live → ∀ n ∈ w.memories.rows, n.id ≠ new.id → n.live → n.userId = new.userId →
    n.contentHash ≠ new.contentHash
  located : locationChecks new.locationLat new.locationLng = true

theorem RowChange.inv {w w' : World Backend} {new : Memory} (hc : RowChange w w' new)
    (h : RemoteInv w) (hsync : SyncInv w') (hf : RowFits w w' new) : RemoteInv w' where
  sync := hsync
  stored := by
    intro m hm d hd
    rcases hc.rows m hm with rfl | ⟨hm, hne⟩
    · exact hf.stored d hd
    · rw [hc.docs m hm hne d hd]
      exact h.stored m hm d hd
  apart := by
    intro m hm n hn d hmd hnd
    rcases hc.rows m hm with rfl | ⟨hm, hmne⟩ <;> rcases hc.rows n hn with rfl | ⟨hn, hnne⟩
    · rfl
    · exact absurd hnd (hf.apart d hmd n hn hnne)
    · exact absurd hmd (hf.apart d hnd m hm hmne)
    · exact h.apart m hm n hn d hmd hnd
  hashes := by
    intro m hm n hn hml hnl huser hhash
    rcases hc.rows m hm with rfl | ⟨hm, hmne⟩ <;> rcases hc.rows n hn with rfl | ⟨hn, hnne⟩
    · rfl
    · exact absurd hhash.symm (hf.hashes hml n hn hnne hnl huser.symm)
    · exact absurd hhash (hf.hashes hnl m hm hmne hml huser)
    · exact h.hashes m hm n hn hml hnl huser hhash
  located := by
    intro m hm
    rcases hc.rows m hm with rfl | ⟨hm, _⟩
    · exact hf.located
    · exact h.located m hm

/-- Documents at ids no other row holds decide whether the state stays mirrored. -/
theorem RowChange.mirrored_iff {w w' : World Backend} {new : Memory} (hc : RowChange w w' new)
    (hP : Mirrored w) : Mirrored w' ↔ new.Mirrored w'.remote.docs := by
  constructor
  · intro h
    exact h new hc.written
  · intro hnew m hm
    rcases hc.rows m hm with rfl | ⟨hm, hne⟩
    · exact hnew
    · intro hlive hstatus
      have hdoc := hP m hm hlive hstatus
      obtain ⟨d, hext, hdocs⟩ := Option.bind_eq_some_iff.1 hdoc
      rw [hext, Option.bind_some, hc.docs m hm hne d ⟨hext, Or.inl hlive⟩, hdocs]

/-! ## Which rows a request writes -/

theorem put_rows_change {R : Type} {w : World R} {memories : MemoryTable} {row : Memory}
    {p : Memory × World R} (hrow : row ∈ w.memories.rows) (hid : p.1.id = row.id)
    (hput : memories.put p.1 = w.memories.put p.1) :
    (∀ m ∈ (commitRow memories p).memories.rows,
      m = p.1 ∨ (m ∈ w.memories.rows ∧ m.id ≠ p.1.id)) ∧
    p.1 ∈ (commitRow memories p).memories.rows := by
  rw [commitRow_memories, hput]
  exact ⟨fun m hm => Table.mem_put hm, Table.mem_put_self hrow hid.symm⟩

theorem insert_rows_change {R : Type} {w : World R} {memories : MemoryTable} {row : Memory}
    {p : Memory × World R} (hinsert : w.memories.insert? row = some memories)
    (hid : p.1.id = row.id) :
    (∀ m ∈ (commitRow memories p).memories.rows,
      m = p.1 ∨ (m ∈ w.memories.rows ∧ m.id ≠ p.1.id)) ∧
    p.1 ∈ (commitRow memories p).memories.rows := by
  have hfresh := (Table.insert?_eq_some.1 hinsert).1
  rw [commitRow_memories, Table.insert?_put_rows hinsert hid]
  refine ⟨fun m hm => ?_, by simp⟩
  rcases List.mem_append.1 hm with hm | hm
  · exact Or.inr ⟨hm, hid ▸ hfresh m hm⟩
  · exact Or.inl (List.mem_singleton.1 hm)

/-! ## Pushes -/

/-- A row about to be pushed: a document it would patch is held by its live stored version, and
its hash and coordinates pass the constraints. -/
structure Pushable (w : World Backend) (r : Memory) : Prop where
  held : r.externalId = none ∨
    ∃ old ∈ w.memories.rows, old.id = r.id ∧ old.externalId = r.externalId ∧ old.live ∧ r.live
  hashes : r.live → ∀ n ∈ w.memories.rows, n.id ≠ r.id → n.live → n.userId = r.userId →
    n.contentHash ≠ r.contentHash
  located : locationChecks r.locationLat r.locationLng = true

/-- No other row holds the document that a pushable row has. -/
theorem Pushable.apart {w : World Backend} {r : Memory} (hp : Pushable w r) (h : RemoteInv w)
    {d : String} (hext : r.externalId = some d) :
    ∀ n ∈ w.memories.rows, n.id ≠ r.id → ¬ n.Holds d := by
  intro n hn hne hnd
  rcases hp.held with hnone | ⟨old, hold, hid, hoext, hlive, _⟩
  · rw [hnone] at hext
    cases hext
  · exact hne ((h.apart n hn old hold d hnd ⟨hoext.trans hext, Or.inl hlive⟩).trans hid)

theorem Pushable.stored {w : World Backend} {r : Memory} (hp : Pushable w r) (h : RemoteInv w)
    {d : String} (hext : r.externalId = some d) : w.remote.docs d ≠ none := by
  rcases hp.held with hnone | ⟨old, hold, _, hoext, hlive, _⟩
  · rw [hnone] at hext
    cases hext
  · exact h.stored old hold d ⟨hoext.trans hext, Or.inl hlive⟩

/-- **A push is a change of one row that fits.** -/
theorem push_change {w w' : World Backend} {r r' : Memory} {changed : Bool}
    (h : RemoteInv w) (hp : Pushable w r)
    (hend : PushEnd r changed w.remote r' w'.remote.docs)
    (hrows : (∀ m ∈ w'.memories.rows, m = r' ∨ (m ∈ w.memories.rows ∧ m.id ≠ r'.id)) ∧
      r' ∈ w'.memories.rows) : RowChange w w' r' ∧ RowFits w w' r' := by
  generalize hdocs : w'.remote.docs = docs' at hend
  cases hend with
  | failed error why =>
    refine ⟨⟨hrows.1, hrows.2, fun m hm hne d hd => by rw [hdocs]⟩, ?_, ?_, hp.hashes, hp.located⟩
    · intro d hd
      rw [hdocs]
      exact hp.stored h hd.1
    · intro d hd
      exact hp.apart h hd.1
  | @added docId at_ hext hfresh =>
    refine ⟨⟨hrows.1, hrows.2, fun m hm hne d hd => ?_⟩, ?_, ?_, hp.hashes, hp.located⟩
    · have hstored := h.stored m hm d hd
      rw [hdocs, setDoc_ne]
      rintro rfl
      exact hstored hfresh
    · rintro d ⟨hd, _⟩
      cases hd
      rw [hdocs, setDoc_self]
      simp
    · rintro d ⟨hd, _⟩ n hn _ hnd
      cases hd
      exact h.stored n hn docId hnd hfresh
  | @patched docId doc at_ hnext hext hdoc =>
    refine ⟨⟨hrows.1, hrows.2, fun m hm hne d hd => ?_⟩, ?_, ?_, hp.hashes, hp.located⟩
    · rw [hdocs, setDoc_ne]
      rintro rfl
      exact hp.apart h hext m hm hne hd
    · rintro d ⟨hd, _⟩
      cases hext.symm.trans hd
      rw [hdocs, setDoc_self]
      simp
    · rintro d ⟨hd, _⟩
      exact hp.apart h hd

/-- A pushed row is mirrored unless a patch without content left other content behind. -/
theorem push_mirrored_iff {b : Backend} {r r' : Memory} {changed : Bool}
    {docs : String → Option Doc} (hend : PushEnd r changed b r' docs) (hlive : r.live) :
    r'.Mirrored docs ↔
      ¬ (changed = false ∧ ∃ fresh docId doc, b.next = .ok fresh ∧ r.externalId = some docId ∧
        b.docs docId = some doc ∧ doc.content ≠ r.text) := by
  cases hend with
  | failed error why =>
    refine iff_of_true (fun _ hstatus => nomatch hstatus) ?_
    rintro ⟨_, fresh, docId, doc, hnext, hext, hdoc, _⟩
    exact why fresh docId doc hnext hext hdoc
  | added at_ hext hfresh =>
    refine iff_of_true (fun _ _ => ?_) ?_
    · simp [buildMetadata]
    · rintro ⟨_, fresh, docId, doc, _, hsome, _⟩
      rw [hext] at hsome
      cases hsome
  | @patched docId doc at_ hnext hext hdoc =>
    obtain ⟨fresh, hnext⟩ := hnext
    have hmirror : ({ r with
        externalStatus := .synced, externalSyncedAt := some at_, externalError := none } :
          Memory).Mirrored (setDoc b.docs docId
            (some ⟨if changed then r.text else doc.content, buildMetadata r⟩)) ↔
        (if changed then r.text else doc.content) = r.text := by
      simp [Memory.Mirrored, hlive, hext, buildMetadata]
    rw [hmirror]
    cases changed with
    | true => simp
    | false =>
      simp only [Bool.false_eq_true, if_false, true_and, not_exists, not_and]
      constructor
      · intro heq _ d doc' _ hd hdoc'
        cases hext.symm.trans hd
        cases hdoc.symm.trans hdoc'
        exact fun hne => hne heq
      · intro hno
        by_contra hne
        exact hno fresh docId doc hnext hext hdoc hne

/-! ## Deletes -/

/-- A tombstone left by a `client.delete` fits, whether the call succeeded or not. -/
theorem delete_change {w w' : World Backend} {row r' : Memory} {docId : String}
    (error : Option String) (h : RemoteInv w) (hrow : row ∈ w.memories.rows)
    (hholds : row.Holds docId) (hid : r'.id = row.id) (hext : r'.externalId = some docId)
    (hdead : ¬ r'.live)
    (hstatus : r'.externalStatus = if error.isSome then .pendingDelete else .synced)
    (hloc : locationChecks r'.locationLat r'.locationLng = true)
    (hend : DeleteEnd docId w.remote.docs error w'.remote.docs)
    (hrows : (∀ m ∈ w'.memories.rows, m = r' ∨ (m ∈ w.memories.rows ∧ m.id ≠ r'.id)) ∧
      r' ∈ w'.memories.rows) : RowChange w w' r' ∧ RowFits w w' r' := by
  have hapart : ∀ n ∈ w.memories.rows, n.id ≠ r'.id → ¬ n.Holds docId := fun n hn hne hnd =>
    hne ((h.apart n hn row hrow docId hnd hholds).trans hid.symm)
  generalize hdocs : w'.remote.docs = docs' at hend
  cases hend with
  | failed error =>
    refine ⟨⟨hrows.1, hrows.2, fun m hm hne d hd => by rw [hdocs]⟩, ?_, ?_,
      fun hlive => absurd hlive hdead, hloc⟩
    · rintro d ⟨hd, _⟩
      cases hext.symm.trans hd
      rw [hdocs]
      exact h.stored row hrow docId hholds
    · rintro d ⟨hd, _⟩
      cases hext.symm.trans hd
      exact hapart
  | removed =>
    have hfree : ∀ d, ¬ r'.Holds d := by
      rintro d ⟨_, hlive | hpending⟩
      · exact hdead hlive
      · rw [hstatus] at hpending
        cases hpending
    refine ⟨⟨hrows.1, hrows.2, fun m hm hne d hd => ?_⟩, fun d hd => absurd hd (hfree d),
      fun d hd => absurd hd (hfree d), fun hlive => absurd hlive hdead, hloc⟩
    rw [hdocs, setDoc_ne]
    rintro rfl
    exact hapart m hm hne hd

/-- A tombstone with no remote id fits. -/
theorem local_delete_change {w w' : World Backend} {r' : Memory} (hext : r'.externalId = none)
    (hdead : ¬ r'.live) (hloc : locationChecks r'.locationLat r'.locationLng = true)
    (hdocs : w'.remote.docs = w.remote.docs)
    (hrows : (∀ m ∈ w'.memories.rows, m = r' ∨ (m ∈ w.memories.rows ∧ m.id ≠ r'.id)) ∧
      r' ∈ w'.memories.rows) : RowChange w w' r' ∧ RowFits w w' r' := by
  have hfree : ∀ d, ¬ r'.Holds d := by
    rintro d ⟨hd, _⟩
    rw [hext] at hd
    cases hd
  exact ⟨⟨hrows.1, hrows.2, fun m hm hne d hd => by rw [hdocs]⟩, fun d hd => absurd hd (hfree d),
    fun d hd => absurd hd (hfree d), fun hlive => absurd hlive hdead, hloc⟩

/-! ## One request -/

/-- The new row of an accepted create is pushable. -/
theorem pushable_newRow {pf : Platform} {env : Env} {w : World Backend} {userId : UUID}
    {args : CreateArgs} {text : Text} (hcheck : checkCreate pf args = .ok text)
    (hhash : findByHash w.memories userId (canonicalHash pf text) = none) :
    Pushable w (newRow pf env userId args text) where
  held := Or.inl rfl
  hashes := by
    intro _ n hn _ hlive huser hsame
    have hnone := List.find?_eq_none.1 hhash n hn
    simp [huser, hsame, hlive, newRow] at hnone
  located := checkCreate_located hcheck

/-- The patched row of an accepted update is pushable. -/
theorem pushable_patched {pf : Platform} {w : World Backend} {row row' : Memory}
    {args : UpdateArgs} {changed : Bool} {memories : MemoryTable}
    (hrow : row ∈ w.memories.rows) (hlive : row.live)
    (hpatch : applyPatch pf row args = .ok (row', changed))
    (hflush : flush pf w.memories row' = .ok memories) : Pushable w row' where
  held := by
    obtain ⟨text, hash, rfl, _, _⟩ := applyPatch_ok hpatch
    exact Or.inr ⟨row, hrow, rfl, rfl, hlive, hlive⟩
  hashes := fun _ => (flush_eq_ok.1 hflush).2.2.1
  located := (flush_eq_ok.1 hflush).2.1

/-- A stored row that `sync_memory` pushes is pushable. -/
theorem pushable_stored {w : World Backend} (h : RemoteInv w) {row : Memory}
    (hrow : row ∈ w.memories.rows) (hstatus : row.externalStatus = .unsynced) :
    Pushable w row where
  held := by
    by_cases hlive : row.live
    · exact Or.inr ⟨row, hrow, rfl, rfl, hlive, hlive⟩
    · exact Or.inl ((h.sync row hrow).tombstone hlive hstatus)
  hashes := fun hlive n hn hne hnlive huser hhash =>
    hne (h.hashes n hn row hrow hnlive hlive huser hhash)
  located := h.located row hrow

/-- **What one request does to the rows and documents**: nothing, or one row changes into one
that fits, and is mirrored unless the request masks stale content. -/
theorem handle_change (pf : Platform) (env : Env) {w : World Backend} (h : RemoteInv w)
    (req : Request) :
    ((handle pf backend env w req).memories = w.memories ∧
      (handle pf backend env w req).remote.docs = w.remote.docs) ∨
    ∃ new, (RowChange w (handle pf backend env w req) new ∧
        RowFits w (handle pf backend env w req) new) ∧
      (¬ MasksStaleContent pf w req →
        new.Mirrored (handle pf backend env w req).remote.docs) := by
  have heff := request_effect pf backend env w req
  generalize handle pf backend env w req = w' at heff ⊢
  cases heff with
  | unchanged => exact Or.inl ⟨rfl, rfl⟩
  | @created userId args text memories hcheck hhash hinsert =>
    have hend := pushRow_end env (newRow pf env userId args text) true w
    refine Or.inr ⟨_, push_change h (pushable_newRow hcheck hhash) hend
      (insert_rows_change hinsert (by simp)), fun _ => ?_⟩
    exact (push_mirrored_iff hend rfl).2 (by simp)
  | @updated args row row' changed memories hrow hlive hpatch hflush =>
    have hend := pushRow_end env row' changed w
    obtain ⟨text, hash, rfl, hsame, _⟩ := applyPatch_ok hpatch
    refine Or.inr ⟨_, push_change h (pushable_patched hrow hlive hpatch hflush) hend
      (put_rows_change hrow (by simp [patchColumns])
        (by rw [flush_ok hflush, Table.put_put (by simp)])), fun hmask => ?_⟩
    refine (push_mirrored_iff hend hlive).2 ?_
    rintro ⟨rfl, fresh, docId, doc, hnext, hext, hdoc, hne⟩
    obtain ⟨rfl, rfl⟩ := hsame rfl
    exact hmask ⟨row, hrow, args, _, fresh, docId, doc, rfl, hnext, hlive, hpatch,
      (flush_eq_ok.1 hflush).1, hext, hdoc, hne⟩
  | @deletedLocally row hrow hlive hext =>
    have hdead : ¬ ({ row with deletedAt := some env.now } : Memory).live := by simp
    exact Or.inr ⟨{ row with deletedAt := some env.now },
      local_delete_change hext hdead (h.located row hrow) rfl
      (put_rows_change hrow rfl rfl), fun _ hlive' => absurd hlive' hdead⟩
  | @deleted row docId hrow hlive hext =>
    obtain ⟨error, docs, hend, hdocs, hrow'⟩ :=
      sendDelete_end { row with deletedAt := some env.now } docId w
    have hdead : ¬ (sendDelete backend { row with deletedAt := some env.now } docId w).1.live := by
      simp
    refine Or.inr ⟨_, delete_change error h hrow ⟨hext, Or.inl hlive⟩ (by simp) ?_ hdead ?_ ?_ ?_
      (put_rows_change hrow (by simp) rfl), fun _ hlive' => absurd hlive' hdead⟩
    · rw [hrow']; exact hext
    · rw [hrow']
    · rw [hrow']; exact h.located row hrow
    · rw [commitRow_remote, hdocs]; exact hend
  | @synced row hrow hstatus =>
    have hend := pushRow_end env row true w
    refine Or.inr ⟨_, push_change h (pushable_stored h hrow hstatus) hend
      (put_rows_change hrow (by simp) rfl), fun _ hlive => ?_⟩
    have hlive' : row.live := (pushRow_deletedAt backend env row true w).symm.trans hlive
    exact (push_mirrored_iff hend hlive').2 (by simp) hlive
  | @settled row hrow hstatus hext =>
    rw [(h.sync row hrow).unsent hext] at hstatus
    cases hstatus
  | @retried row docId hrow hstatus hext =>
    obtain ⟨error, docs, hend, hdocs, hrow'⟩ := retryDelete_end row docId w
    have hdead : ¬ (retryDelete backend row docId w).1.live := by
      rw [Memory.live, retryDelete_deletedAt]
      exact (h.sync row hrow).pending hstatus
    refine Or.inr ⟨_, delete_change error h hrow ⟨hext, Or.inr hstatus⟩ (by simp) ?_ hdead ?_ ?_ ?_
      (put_rows_change hrow (by simp) rfl), fun _ hlive' => absurd hlive' hdead⟩
    · rw [hrow']; exact hext
    · rw [hrow', hstatus]
    · rw [hrow']; exact h.located row hrow
    · rw [commitRow_remote, hdocs]; exact hend

theorem remoteInv_expecting {w : World Backend} (h : RemoteInv w) (outcome : Outcome) :
    RemoteInv (w.expecting outcome) :=
  ⟨h.sync, h.stored, h.apart, h.hashes, h.located⟩

/-- **One request keeps the invariant.** -/
theorem remoteInv_mirrorStep (pf : Platform) {w : World Backend} (e : MirrorEvent)
    (h : RemoteInv w) : RemoteInv (mirrorStep pf w e) := by
  have hv := remoteInv_expecting h e.outcome
  have hsync := syncInv_handle pf backend e.env hv.sync e.req
  rcases handle_change pf e.env hv e.req with ⟨hmem, hdocs⟩ | ⟨new, ⟨hc, hf⟩, _⟩
  · refine ⟨hsync, ?_, ?_, ?_, ?_⟩
    all_goals simp only [mirrorStep, hmem, hdocs]
    · exact h.stored
    · exact h.apart
    · exact h.hashes
    · exact h.located
  · exact hc.inv hv hsync hf

/-- An update that masks stale content leaves the row `synced` with that content remote. -/
theorem not_mirrored_of_masks {pf : Platform} {env : Env} {w : World Backend} (h : RemoteInv w)
    {req : Request} (hmask : MasksStaleContent pf w req) :
    ¬ Mirrored (handle pf backend env w req) := by
  obtain ⟨row, hrow, args, row', fresh, docId, doc, rfl, hnext, hlive, hpatch, hrefused, hext, hdoc,
    hne⟩ := hmask
  obtain ⟨text, hash, rfl, hsame, _⟩ := applyPatch_ok hpatch
  obtain ⟨rfl, rfl⟩ := hsame rfl
  have hflush : flush pf w.memories (patchColumns row args) =
      .ok (w.memories.put (patchColumns row args)) := by
    refine flush_eq_ok.2 ⟨hrefused, applyPatch_located hpatch (h.located row hrow), ?_, rfl⟩
    intro other hother hid hol huser hhash
    exact hid (h.hashes other hother row hrow hol hlive huser hhash)
  have hfound : (findOwned w.memories row.userId row.id).filter (fun r => r.deletedAt.isNone) =
      some row := by
    rw [findOwned_eq_some.2 ⟨hrow, rfl, rfl⟩]
    simp [hlive]
  have hend := pushRow_end env (patchColumns row args) false w
  intro hP
  have hnew : (pushRow backend env (patchColumns row args) false w).1.Mirrored
      (handle pf backend env w (.update row.userId row.id args)).remote.docs := by
    refine hP _ ?_
    simp only [handle, updateMemory, hfound, hpatch, hflush]
    exact Table.mem_put_self (Table.mem_put_self hrow rfl) (by simp)
  have hdocs : (handle pf backend env w (.update row.userId row.id args)).remote.docs =
      (pushRow backend env (patchColumns row args) false w).2.remote.docs := by
    simp only [handle, updateMemory, hfound, hpatch, hflush]
  rw [hdocs] at hnew
  exact (push_mirrored_iff hend hlive).1 hnew
    ⟨rfl, fresh, docId, doc, hnext, hext, hdoc, hne⟩

/-- **One request** from a mirrored state ends in one exactly when it masks no stale content. -/
theorem mirrored_mirrorStep_iff (pf : Platform) {w : World Backend} (h : RemoteInv w)
    (hP : Mirrored w) (e : MirrorEvent) :
    Mirrored (mirrorStep pf w e) ↔ ¬ MasksStaleContent pf (w.expecting e.outcome) e.req := by
  have hv := remoteInv_expecting h e.outcome
  constructor
  · intro hnext hmask
    exact not_mirrored_of_masks hv hmask hnext
  · intro hmask
    rcases handle_change pf e.env hv e.req with ⟨hmem, hdocs⟩ | ⟨new, ⟨hc, _⟩, hnew⟩
    · simp only [Mirrored, mirrorStep, hmem, hdocs]
      exact hP
    · exact (hc.mirrored_iff hP).2 (hnew hmask)

/-! ## Runs -/

theorem mirrorStart_rows (docs : String → Option Doc) : (mirrorStart docs).memories.rows = [] :=
  rfl

theorem remoteInv_start (docs : String → Option Doc) : RemoteInv (mirrorStart docs) := by
  refine ⟨syncInv_initial _, ?_, ?_, ?_, ?_⟩ <;> simp [mirrorStart_rows]

theorem mirrored_start (docs : String → Option Doc) : Mirrored (mirrorStart docs) := by
  simp [Mirrored, mirrorStart_rows]

/-- **Every reached state is mirrored, exactly when** no step of the run masks stale content. -/
theorem mirrored_states_iff (pf : Platform) (docs : String → Option Doc) (es : List MirrorEvent) :
    (∀ w ∈ Runs.states (mirrorStep pf) (mirrorStart docs) es, Mirrored w) ↔
      ∀ p ∈ Runs.steps (mirrorStep pf) (mirrorStart docs) es,
        ¬ MasksStaleContent pf (p.1.expecting p.2.outcome) p.2.req := by
  have hstep : ∀ w e, RemoteInv w → RemoteInv (mirrorStep pf w e) :=
    fun _ e h => remoteInv_mirrorStep pf e h
  have hexact : ∀ w e, RemoteInv w → Mirrored w →
      (Mirrored (mirrorStep pf w e) ↔ ¬ MasksStaleContent pf (w.expecting e.outcome) e.req) :=
    fun _ e h hP => mirrored_mirrorStep_iff pf h hP e
  exact Runs.states_iff_steps hstep hexact (remoteInv_start docs) (mirrored_start docs) es

/-- A create, a text update whose patch fails, a label update whose patch succeeds: the row is
`synced` and its document still has the first text. -/
theorem label_update_masks_failed_text_update :
    ¬ ∀ w ∈ Runs.states (mirrorStep utcPlatform) (mirrorStart fun _ => none)
      [⟨⟨0, 0, 1⟩, .create 7
          ⟨"ran".toList, sampleDate, "UTC".toList, none, none, none, none, none⟩, .ok "doc"⟩,
        ⟨⟨0, 0, 1⟩, .update 7 1
          ⟨.set "swam".toList, .unset, .unset, .unset, .unset, .unset, .unset⟩, .err .transient⟩,
        ⟨⟨0, 0, 1⟩, .update 7 1
          ⟨.unset, .unset, .unset, .unset, .unset, .unset, .set (some "sea".toList)⟩, .ok "-"⟩],
      Mirrored w := by
  decide

end MeJournal
