import MeJournal.Memory.ConcurrentEdits
import MeJournal.Lib.Runs

/-!
# What the moves of a concurrent request do

* `PatchOf`, `CallOf` — how a request's copy differs from what it loaded, before and after its
  client call; `writeColumns` of such a copy keeps the columns the constraints read.
* `Flushed`, `PatchEnd` — what a flush and a push do; `flushTo_cases`, `push_end`, `delete_end`.
* `update_alone`, `delete_alone` — moves that nobody interrupts do what `updateMemory` and
  `deleteMemory` do.
-/

namespace MeJournal

/-! ## Copies -/

/-- `current` is `loaded` after an accepted patch. -/
structure PatchOf (loaded current : Memory) (textChanged : Bool) : Prop where
  id : current.id = loaded.id
  userId : current.userId = loaded.userId
  createdAt : current.createdAt = loaded.createdAt
  externalId : current.externalId = loaded.externalId
  externalStatus : current.externalStatus = loaded.externalStatus
  deletedAt : current.deletedAt = loaded.deletedAt
  text : textChanged = true ↔ current.text ≠ loaded.text

/-- `current` is `loaded` after a client call. -/
structure CallOf (loaded current : Memory) : Prop where
  id : current.id = loaded.id
  userId : current.userId = loaded.userId
  createdAt : current.createdAt = loaded.createdAt
  text : current.text = loaded.text
  eventDate : current.eventDate = loaded.eventDate
  eventTz : current.eventTz = loaded.eventTz
  locationLat : current.locationLat = loaded.locationLat
  locationLng : current.locationLng = loaded.locationLng
  locationLabel : current.locationLabel = loaded.locationLabel
  contentHash : current.contentHash = loaded.contentHash
  externalId : current.externalId = loaded.externalId
  deletedAt : current.deletedAt = loaded.deletedAt ∨ loaded.live ∧ ¬ current.live

theorem applyPatch_patchOf {pf : Platform} {loaded current : Memory} {args : UpdateArgs}
    {textChanged : Bool} (h : applyPatch pf loaded args = .ok (current, textChanged)) :
    PatchOf loaded current textChanged := by
  obtain ⟨text, hash, rfl, hsame, hne⟩ := applyPatch_ok h
  refine ⟨rfl, rfl, rfl, rfl, rfl, rfl, fun hc => (hne hc).1, fun hc => ?_⟩
  cases textChanged with
  | true => rfl
  | false => exact absurd (hsame rfl).1 hc

/-! ## Writes -/

theorem PatchOf.write_loaded {loaded current : Memory} {textChanged : Bool}
    (h : PatchOf loaded current textChanged) : writeColumns loaded current loaded = current :=
  writeColumns_loaded h.id h.userId h.createdAt

theorem buildMetadata_write_call {loaded current : Memory} (h : CallOf loaded current)
    (stored : Memory) :
    buildMetadata (writeColumns loaded current stored) = buildMetadata stored := by
  simp [buildMetadata, writeColumns, h.eventDate, h.eventTz, h.locationLat, h.locationLng,
    h.locationLabel]

theorem deletedAt_write_call {loaded current stored : Memory} (h : CallOf loaded current) :
    (writeColumns loaded current stored).live ↔
      stored.live ∧ ¬ (loaded.live ∧ ¬ current.live) := by
  have hwrite : (writeColumns loaded current stored).deletedAt =
      writeColumn loaded.deletedAt current.deletedAt stored.deletedAt := rfl
  rcases h.deletedAt with hsame | ⟨hlive, hdead⟩
  · have hno : ¬ (loaded.live ∧ ¬ current.live) := fun ⟨hl, hc⟩ => hc (hsame.trans hl)
    simp [Memory.live, hwrite, hsame]
  · have hne : current.deletedAt ≠ none := hdead
    simp [Memory.live, hwrite, writeColumn, hlive, hdead]

/-- The database still admits a row that keeps the columns it checks or leaves the partial index. -/
theorem admits_write_call {pf : Platform} {others : List Memory} {loaded current stored : Memory}
    (h : CallOf loaded current) (hstored : admits pf others stored = true) :
    admits pf others (writeColumns loaded current stored) = true := by
  have hlat : (writeColumns loaded current stored).locationLat = stored.locationLat := by
    simp [writeColumns, h.locationLat]
  have hlng : (writeColumns loaded current stored).locationLng = stored.locationLng := by
    simp [writeColumns, h.locationLng]
  have hhash : (writeColumns loaded current stored).contentHash = stored.contentHash := by
    simp [writeColumns, h.contentHash]
  have huser : (writeColumns loaded current stored).userId = stored.userId := rfl
  have hrefused : (writeColumns loaded current stored).refused pf = stored.refused pf := by
    simp [Memory.refused, writeColumns, h.text, h.eventTz, h.locationLabel]
  have hlive : (writeColumns loaded current stored).live → stored.live :=
    fun hl => ((deletedAt_write_call h).1 hl).1
  simp only [admits, hrefused, hlat, hlng, hhash, huser, Bool.and_eq_true, Bool.not_eq_true',
    Bool.and_eq_false_imp, Option.isNone_iff_eq_none] at hstored ⊢
  exact ⟨hstored.1, fun hl => hstored.2 (hlive hl)⟩

/-! ## The state -/

@[simp, grind =] theorem goto_pc (s : Editing) (side : Bool) (pc : EditPc) (other : Bool) :
    (s.goto side pc).pc other = if other = side then pc else s.pc other := by
  simp [Editing.goto, Function.update_apply]

@[simp, grind =] theorem goto_newest (s : Editing) (side : Bool) (pc : EditPc) :
    (s.goto side pc).newest = s.newest := rfl

theorem newest_of_pending_none {s : Editing} (h : s.pending = none) : s.newest = s.stored := by
  simp only [Editing.newest, h]

theorem newest_of_pending {s : Editing} {owner : Bool} {row : Memory}
    (h : s.pending = some (owner, row)) : s.newest = row := by
  simp only [Editing.newest, h]

theorem side_cases (side other : Bool) : other = side ∨ (!other) = side := by
  cases side <;> cases other <;> simp

theorem forall_side {P : Bool → Prop} (side : Bool) (h : P side) (h' : P (!side)) :
    ∀ other, P other := by
  intro other
  cases side <;> cases other <;> assumption

/-- Whether some request satisfies `P` after `side` has gone on to `next`. -/
theorem exists_pc {s s' : Editing} {side : Bool} {next : EditPc}
    (hpc : ∀ other, s'.pc other = if other = side then next else s.pc other) {P : EditPc → Prop}
    (hP : P next ↔ P (s.pc side)) : (∃ other, P (s'.pc other)) ↔ ∃ other, P (s.pc other) := by
  have hsame : ∀ other, P (s'.pc other) ↔ P (s.pc other) := by
    intro other
    rw [hpc]
    split
    · rename_i ho
      rw [ho, hP]
    · exact Iff.rfl
  exact exists_congr hsame

/-! ## Flushes -/

/-- What a flush that sends its `UPDATE`, or has nothing to send, does. -/
structure Flushed (pf : Platform) (others : List Memory) (s s' : Editing) (side : Bool)
    (loaded current : Memory) (next : EditPc) : Prop where
  pc : ∀ other, s'.pc other = if other = side then next else s.pc other
  stored : s'.stored = s.stored
  docs : s'.docs = s.docs
  newest : s'.newest = writeColumns loaded current s.newest
  pending : s'.pending = s.pending ∧ current = loaded ∨
    s'.pending = some (side, s'.newest) ∧ admits pf others s'.newest = true ∧
      ∀ owner row, s.pending = some (owner, row) → owner = side

/-- A flush is blocked by the other request, raises, or flushes. -/
theorem flushTo_cases (pf : Platform) (others : List Memory) (s : Editing) (side : Bool)
    (loaded current : Memory) (next : EditPc) :
    ((∃ owner row, s.pending = some (owner, row) ∧ owner ≠ side) ∧
        s.flushTo pf others side loaded current next = s) ∨
      ((∀ owner row, s.pending = some (owner, row) → owner = side) ∧
        admits pf others (writeColumns loaded current s.newest) = false ∧
        s.flushTo pf others side loaded current next =
          { s.goto side .finished with pending := none }) ∨
      Flushed pf others s (s.flushTo pf others side loaded current next) side loaded current
        next := by
  unfold Editing.flushTo Editing.flush
  by_cases hsame : current = loaded
  · refine Or.inr (Or.inr ?_)
    rw [if_pos hsame]
    refine ⟨fun other => by simp, rfl, rfl, ?_, Or.inl ⟨rfl, hsame⟩⟩
    rw [hsame, writeColumns_self]
    rfl
  rw [if_neg hsame]
  by_cases hblocked : (s.pending.any fun version => version.1 != side) = true
  · obtain ⟨version, hp, hne⟩ := (Option.any_eq_true _ _).1 hblocked
    rw [if_pos hblocked]
    exact Or.inl ⟨⟨version.1, version.2, hp, by simpa using hne⟩, rfl⟩
  rw [if_neg hblocked]
  have hown : ∀ owner row, s.pending = some (owner, row) → owner = side := by
    intro owner row hp
    simpa [hp] using hblocked
  cases hadmits : admits pf others (writeColumns loaded current s.newest) with
  | false =>
    refine Or.inr (Or.inl ⟨hown, rfl, ?_⟩)
    have hnone : s.pending.filter (fun version => version.1 != side) = none := by
      cases hp : s.pending with
      | none => rfl
      | some version => simp [Option.filter, hown version.1 version.2 hp]
    simp [hadmits, hnone]
  | true =>
    refine Or.inr (Or.inr ?_)
    simp only [hadmits, if_true]
    exact ⟨fun other => by simp, rfl, rfl, rfl, Or.inr ⟨rfl, hadmits, hown⟩⟩

variable {others : List Memory} {docId : String} {s s' : Editing} {side : Bool}

/-! ## Client calls -/

/-- How the push of a row with a document ends: it fails exactly when the document is absent. -/
inductive PatchEnd (docId : String) (docs : String → Option Doc) (row : Memory)
    (textChanged : Bool) (row' : Memory) (docs' : String → Option Doc) : Prop
  | absent (hdocs : docs docId = none) (hdocs' : docs' = docs)
      (hstatus : row'.externalStatus = .unsynced)
  | patched (doc : Doc) (hdocs : docs docId = some doc)
      (hdocs' : docs' docId =
        some ⟨if textChanged then row.text else doc.content, buildMetadata row⟩)
      (hstatus : row'.externalStatus = .synced)

theorem push_end (turn : EditTurn) {row : Memory} (textChanged : Bool)
    (hext : row.externalId = some docId) :
    PatchEnd docId s.docs row textChanged
        (pushRow backend turn.env row textChanged (s.world turn)).1
        (pushRow backend turn.env row textChanged (s.world turn)).2.remote.docs ∧
      CallOf row (pushRow backend turn.env row textChanged (s.world turn)).1 ∧
      (pushRow backend turn.env row textChanged (s.world turn)).1.deletedAt = row.deletedAt := by
  have hend := pushRow_end turn.env row textChanged (s.world turn)
  generalize (pushRow backend turn.env row textChanged (s.world turn)).1 = row' at hend ⊢
  generalize (pushRow backend turn.env row textChanged (s.world turn)).2.remote.docs = docs'
    at hend ⊢
  cases hend with
  | failed error why =>
    have hnone : s.docs docId = none := by
      cases hdoc : s.docs docId with
      | none => rfl
      | some doc => exact absurd hdoc (why turn.fresh docId doc rfl hext)
    exact ⟨.absent hnone rfl rfl,
      ⟨rfl, rfl, rfl, rfl, rfl, rfl, rfl, rfl, rfl, rfl, rfl, Or.inl rfl⟩, rfl⟩
  | added at_ hnone =>
    rw [hext] at hnone
    cases hnone
  | @patched d doc at_ hnext hd hdoc =>
    cases hext.symm.trans hd
    exact ⟨.patched doc hdoc (setDoc_self ..) rfl,
      ⟨rfl, rfl, rfl, rfl, rfl, rfl, rfl, rfl, rfl, rfl, rfl, Or.inl rfl⟩, rfl⟩

/-- The `client.delete` succeeds. -/
theorem delete_end (turn : EditTurn) (row : Memory) (docId : String) :
    (sendDelete backend row docId (s.world turn)).1 =
        { row with externalStatus := .synced, externalError := none } ∧
      (sendDelete backend row docId (s.world turn)).2.remote.docs docId = none :=
  ⟨rfl, setDoc_self ..⟩

/-! ## A request on its own -/

/-- A client call depends on the remote state only. -/
theorem pushRow_remote {w w' : World Backend} (h : w.remote = w'.remote) (env : Env) (row : Memory)
    (changed : Bool) :
    (pushRow backend env row changed w).1 = (pushRow backend env row changed w').1 ∧
      (pushRow backend env row changed w).2.remote =
        (pushRow backend env row changed w').2.remote := by
  unfold pushRow
  split <;> simp [sendToSupermemoryAdd, sendToSupermemoryPatch, h]

theorem sendDelete_remote {w w' : World Backend} (h : w.remote = w'.remote) (row : Memory)
    (d : String) :
    (sendDelete backend row d w).1 = (sendDelete backend row d w').1 ∧
      (sendDelete backend row d w).2.remote = (sendDelete backend row d w').2.remote := by
  simp [sendDelete, h]

/-- The rows of the table that are not the one the requests work on. -/
def otherRows (t : MemoryTable) (row : Memory) : List Memory :=
  t.rows.filter fun other => other.id != row.id

/-- The flush of `update_memory` among the rows of the table. -/
theorem flush_eq_admits (pf : Platform) {t : MemoryTable} {row row' : Memory} (hlive : row'.live)
    (hid : row'.id = row.id) :
    (∃ memories, flush pf t row' = .ok memories) ↔
      admits pf (otherRows t row) row' = true := by
  simp only [flush_eq_ok, admits, otherRows, hlive, Option.isNone_none, Bool.true_and,
    Bool.and_eq_true, Bool.not_eq_true', List.any_eq_false, List.mem_filter, decide_eq_true_eq,
    bne_iff_ne, hid, and_assoc, exists_and_left, exists_eq, and_true, Option.isNone_iff_eq_none]
  refine and_congr_right fun _ => and_congr_right fun _ => forall_congr' fun other => ?_
  constructor
  · rintro h ⟨hm, hne⟩ ⟨huser, hhash, hl⟩
    exact h hm hne hl huser hhash
  · intro h hm hne hl huser hhash
    exact h ⟨hm, hne⟩ ⟨huser, hhash, hl⟩

theorem run_finished (pf : Platform) {turn : EditTurn} (h : s.pc turn.side = .finished) (n : Nat) :
    Runs.run (editMove pf others) s (List.replicate n turn) = s := by
  induction n with
  | zero => rfl
  | succ n ih =>
    have hmove : editMove pf others s turn = s := by simp only [editMove, h]
    rw [List.replicate_succ, Runs.run_cons, hmove, ih]

/-- COMMIT with no version of the other request pending. -/
theorem commit_alone (hown : ∀ owner row, s.pending = some (owner, row) → owner = side) :
    (s.commit side).stored = s.newest ∧ (s.commit side).docs = s.docs ∧
      (s.commit side).pc side = .finished := by
  unfold Editing.commit
  cases hp : s.pending with
  | none => exact ⟨(newest_of_pending_none hp).symm, rfl, by simp⟩
  | some version =>
    simp only [hown version.1 version.2 hp, if_true]
    exact ⟨(newest_of_pending hp).symm, rfl, by simp [Editing.goto]⟩

/-- `db.commit()` stores the copy when nobody else wrote since it was loaded. -/
theorem called_alone (pf : Platform) {turn : EditTurn} {loaded current : Memory}
    (hpc : s.pc turn.side = .called loaded current) (hcall : CallOf loaded current)
    (hown : ∀ owner row, s.pending = some (owner, row) → owner = turn.side)
    (hnewest : s.newest = loaded) (hadmits : admits pf others loaded = true) :
    ∃ s', Runs.run (editMove pf others) s (List.replicate 2 turn) = s' ∧
      s'.pc turn.side = .finished ∧ s'.stored = current ∧ s'.docs = s.docs := by
  have hmove : editMove pf others s turn =
      s.flushTo pf others turn.side loaded current .closing := by
    simp only [editMove, hpc]
  rcases flushTo_cases pf others s turn.side loaded current .closing with
    ⟨⟨owner, row, hp, hne⟩, _⟩ | ⟨_, hno, _⟩ | hw
  · exact absurd (hown owner row hp) hne
  · rw [admits_write_call hcall (hnewest ▸ hadmits)] at hno
    cases hno
  · generalize s.flushTo pf others turn.side loaded current .closing = s₁ at hmove hw
    have hclosing : s₁.pc turn.side = .closing := by rw [hw.pc, if_pos rfl]
    have hown₁ : ∀ owner row, s₁.pending = some (owner, row) → owner = turn.side := by
      intro owner row hp
      rcases hw.pending with ⟨hsame, _⟩ | ⟨hset, _, _⟩
      · exact hown owner row (hsame ▸ hp)
      · rw [hset] at hp
        cases hp
        rfl
    have hcommit : editMove pf others s₁ turn = s₁.commit turn.side := by
      simp only [editMove, hclosing]
    have hnewest₁ : s₁.newest = current := by
      rw [hw.newest, hnewest, writeColumns_loaded hcall.id hcall.userId hcall.createdAt]
    obtain ⟨hstored, hdocs, hfinished⟩ := commit_alone hown₁
    refine ⟨s₁.commit turn.side, ?_, hfinished, hstored.trans hnewest₁, hdocs.trans hw.docs⟩
    simp only [List.replicate_succ, List.replicate_zero, Runs.run_cons, Runs.run_nil, hmove,
      hcommit]

/-- A patched copy of the committed row is flushed, pushed and stored, unless a constraint
refuses it. -/
theorem patched_alone (pf : Platform) {turn : EditTurn} {row row' : Memory} {changed : Bool}
    (hpc : s.pc turn.side = .patched row row' changed) (hp : PatchOf row row' changed)
    (hpending : s.pending = none) (hstored : s.stored = row) (hext : row.externalId = some docId)
    (hadmits : admits pf others row = true) :
    ∃ s', Runs.run (editMove pf others) s (List.replicate 4 turn) = s' ∧
      s'.pc turn.side = .finished ∧
      if admits pf others row' then
        s'.stored = (pushRow backend turn.env row' changed (s.world turn)).1 ∧
        s'.docs = (pushRow backend turn.env row' changed (s.world turn)).2.remote.docs
      else s'.stored = row ∧ s'.docs = s.docs := by
  have hnewest : s.newest = row := (newest_of_pending_none hpending).trans hstored
  have hmove : editMove pf others s turn =
      s.flushTo pf others turn.side row row' (.flushed row' changed) := by
    simp only [editMove, hpc]
  rcases flushTo_cases pf others s turn.side row row' (.flushed row' changed) with
    ⟨⟨owner, version, hv, _⟩, _⟩ | ⟨_, hno, hraised⟩ | hw
  · rw [hpending] at hv
    cases hv
  · rw [hnewest, hp.write_loaded] at hno
    rw [List.replicate_succ, Runs.run_cons, hmove, hraised]
    refine ⟨_, run_finished pf (by simp) 3, by simp, ?_⟩
    rw [hno, if_neg Bool.false_ne_true]
    exact ⟨hstored, rfl⟩
  · generalize s.flushTo pf others turn.side row row' (.flushed row' changed) = s₁ at hmove hw
    have hnewest₁ : s₁.newest = row' := by rw [hw.newest, hnewest, hp.write_loaded]
    have hok : admits pf others row' = true := by
      rcases hw.pending with ⟨_, hsame⟩ | ⟨_, hok, _⟩
      · rw [hsame]
        exact hadmits
      · exact hnewest₁ ▸ hok
    have hflushed : s₁.pc turn.side = .flushed row' changed := by rw [hw.pc, if_pos rfl]
    obtain ⟨_, hcall, _⟩ :=
      push_end (s := s₁) turn changed (hp.externalId.trans hext)
    have hworld : (s₁.world turn).remote = (s.world turn).remote := by
      simp only [Editing.world, hw.docs]
    obtain ⟨hrow, hremote⟩ := pushRow_remote hworld turn.env row' changed
    have hpush : editMove pf others s₁ turn =
        { s₁.goto turn.side
            (.called row' (pushRow backend turn.env row' changed (s₁.world turn)).1) with
          docs := (pushRow backend turn.env row' changed (s₁.world turn)).2.remote.docs } := by
      simp only [editMove, hflushed]
    rw [hrow, hremote] at hpush
    rw [hrow] at hcall
    generalize hs₂ : editMove pf others s₁ turn = s₂ at hpush
    have hown : ∀ owner version, s₂.pending = some (owner, version) → owner = turn.side := by
      intro owner version hv
      have hv : s₁.pending = some (owner, version) := by rw [hpush] at hv; exact hv
      rcases hw.pending with ⟨hsame, _⟩ | ⟨hset, _, _⟩
      · rw [hsame, hpending] at hv
        cases hv
      · rw [hset] at hv
        cases hv
        rfl
    obtain ⟨s', hrun, hfinished, hstored', hdocs'⟩ := called_alone pf (s := s₂)
      (by rw [hpush]; simp) hcall hown (by rw [hpush]; exact hnewest₁) hok
    refine ⟨s', ?_, hfinished, ?_⟩
    · rw [List.replicate_succ, Runs.run_cons, hmove, List.replicate_succ, Runs.run_cons, hs₂, hrun]
    · rw [if_pos hok]
      refine ⟨hstored', ?_⟩
      rw [hdocs', hpush]

/-- **Uninterrupted, an update commits what `update_memory` commits.** -/
theorem update_alone (pf : Platform) {turn : EditTurn} {t : MemoryTable} {row : Memory}
    {docs : String → Option Doc} {pc : Bool → EditPc} {args : UpdateArgs} (hrow : row ∈ t.rows)
    (hadmits : admits pf (otherRows t row) row = true)
    (hext : row.externalId = some docId) (hpc : pc turn.side = .requested (.update args)) :
    ∃ s, Runs.run (editMove pf (otherRows t row))
        ⟨row, none, docs, pc⟩ (List.replicate 5 turn) = s ∧ s.pc turn.side = .finished ∧
      (updateMemory pf backend turn.env row.userId row.id args
        ⟨t, ⟨docs, .ok turn.fresh⟩, []⟩).2.memories = t.put s.stored ∧
      (updateMemory pf backend turn.env row.userId row.id args
        ⟨t, ⟨docs, .ok turn.fresh⟩, []⟩).2.remote.docs = s.docs := by
  have hfound : findOwned t row.userId row.id = some row := findOwned_eq_some.2 ⟨hrow, rfl, rfl⟩
  have hput : t.put row = t := Table.put_of_mem hrow
  rw [List.replicate_succ, Runs.run_cons]
  cases hdel : row.deletedAt with
  | some at_ =>
    simp only [editMove, hpc, updateMemory, hfound, Option.filter, hdel, Option.isSome_some,
      Option.isNone_some, if_true, Bool.false_eq_true, if_false]
    exact ⟨_, run_finished pf (by simp) 4, by simp, hput.symm, rfl⟩
  | none =>
    simp only [editMove, hpc, updateMemory, hfound, Option.filter, hdel, Option.isSome_none,
      Option.isNone_none, if_true, Bool.false_eq_true, if_false]
    cases hpatch : applyPatch pf row args with
    | error e => exact ⟨_, run_finished pf (by simp) 4, by simp, hput.symm, rfl⟩
    | ok p =>
      obtain ⟨row', changed⟩ := p
      have hp := applyPatch_patchOf hpatch
      have hflush := flush_eq_admits pf (t := t) (hp.deletedAt.trans hdel) hp.id
      have hpatched : (Editing.goto ⟨row, none, docs, pc⟩ turn.side
          (.patched row row' changed)).pc turn.side = .patched row row' changed := by
        rw [goto_pc, if_pos rfl]
      obtain ⟨s', hrun, hfinished, hend⟩ := patched_alone pf hpatched hp rfl rfl hext hadmits
      refine ⟨s', hrun, hfinished, ?_⟩
      cases hfl : flush pf t row' with
      | error e =>
        have hno : ¬ admits pf (otherRows t row) row' = true := by
          rw [← hflush, hfl]
          rintro ⟨_, ⟨⟩⟩
        rw [if_neg hno] at hend
        rw [hend.1, hend.2, hput]
        simp only [hfl]
        exact ⟨trivial, rfl⟩
      | ok memories =>
        rw [if_pos (hflush.1 ⟨memories, hfl⟩)] at hend
        obtain ⟨hstored, hdocs⟩ := hend
        have hworld : (⟨t, ⟨docs, .ok turn.fresh⟩, []⟩ : World Backend).remote =
            (Editing.world (Editing.goto ⟨row, none, docs, pc⟩ turn.side
              (.patched row row' changed)) turn).remote := rfl
        obtain ⟨hpushed, hremote⟩ := pushRow_remote hworld turn.env row' changed
        simp only [hfl, hstored, hdocs, flush_ok hfl, hpushed, hremote]
        exact ⟨Table.put_put (pushRow_id ..), trivial⟩

/-- A marked copy of the committed row is deleted from the index and stored. -/
theorem marked_alone (pf : Platform) {turn : EditTurn} {row row' : Memory} {at_ : Time}
    (hpc : s.pc turn.side = .marked row row') (hrow' : row' = { row with deletedAt := some at_ })
    (hlive : row.live) (hpending : s.pending = none) (hstored : s.stored = row)
    (hext : row'.externalId = some docId) (hadmits : admits pf others row = true) :
    ∃ s', Runs.run (editMove pf others) s (List.replicate 3 turn) = s' ∧
      s'.pc turn.side = .finished ∧
      s'.stored = (sendDelete backend row' docId (s.world turn)).1 ∧
      s'.docs = (sendDelete backend row' docId (s.world turn)).2.remote.docs := by
  have hcall : CallOf row (sendDelete backend row' docId (s.world turn)).1 := by
    rw [(delete_end turn row' docId).1, hrow']
    refine ⟨rfl, rfl, rfl, rfl, rfl, rfl, rfl, rfl, rfl, rfl, rfl, Or.inr ⟨hlive, ?_⟩⟩
    simp
  have hmove : editMove pf others s turn =
      { s.goto turn.side (.called row (sendDelete backend row' docId (s.world turn)).1) with
        docs := (sendDelete backend row' docId (s.world turn)).2.remote.docs } := by
    simp only [editMove, hpc, hext]
  generalize hs₁ : editMove pf others s turn = s₁ at hmove
  have hown : ∀ owner version, s₁.pending = some (owner, version) → owner = turn.side := by
    intro owner version hv
    have hv : s.pending = some (owner, version) := by rw [hmove] at hv; exact hv
    rw [hpending] at hv
    cases hv
  have hnewest : s₁.newest = row := by
    rw [hmove]
    exact (newest_of_pending_none hpending).trans hstored
  obtain ⟨s', hrun, hfinished, hstored', hdocs'⟩ := called_alone pf (s := s₁)
    (by rw [hmove]; simp) hcall hown hnewest hadmits
  refine ⟨s', ?_, hfinished, hstored', ?_⟩
  · rw [List.replicate_succ, Runs.run_cons, hs₁, hrun]
  · rw [hdocs', hmove]

/-- **Uninterrupted, a delete commits what `delete_memory` commits.** -/
theorem delete_alone (pf : Platform) {turn : EditTurn} {t : MemoryTable} {row : Memory}
    {docs : String → Option Doc} {pc : Bool → EditPc} (hrow : row ∈ t.rows)
    (hadmits : admits pf (otherRows t row) row = true) (hext : row.externalId = some docId)
    (hpc : pc turn.side = .requested .delete) :
    ∃ s, Runs.run (editMove pf (otherRows t row)) ⟨row, none, docs, pc⟩
        (List.replicate 4 turn) = s ∧ s.pc turn.side = .finished ∧
      (deleteMemory backend turn.env row.userId row.id
        ⟨t, ⟨docs, .ok turn.fresh⟩, []⟩).2.memories = t.put s.stored ∧
      (deleteMemory backend turn.env row.userId row.id
        ⟨t, ⟨docs, .ok turn.fresh⟩, []⟩).2.remote.docs = s.docs := by
  have hfound : findOwned t row.userId row.id = some row := findOwned_eq_some.2 ⟨hrow, rfl, rfl⟩
  have hput : t.put row = t := Table.put_of_mem hrow
  rw [List.replicate_succ, Runs.run_cons]
  by_cases hlive : row.deletedAt.isSome = true
  · simp only [editMove, hpc, deleteMemory, hfound, if_pos hlive]
    exact ⟨_, run_finished pf (by simp) 3, by simp, hput.symm, rfl⟩
  · have hmarked : (Editing.goto ⟨row, none, docs, pc⟩ turn.side
        (.marked row { row with deletedAt := some turn.env.now })).pc turn.side =
        .marked row { row with deletedAt := some turn.env.now } := by rw [goto_pc, if_pos rfl]
    obtain ⟨s', hrun, hfinished, hstored, hdocs⟩ :=
      marked_alone pf hmarked rfl (by simpa using hlive) rfl rfl hext hadmits
    simp only [editMove, hpc, if_neg hlive]
    refine ⟨s', hrun, hfinished, ?_⟩
    simp only [deleteMemory, hfound, if_neg hlive]
    split
    · rename_i hnone
      rw [hext] at hnone
      cases hnone
    · rename_i d hd
      cases hext.symm.trans hd
      obtain ⟨hsent, hremote⟩ := sendDelete_remote (w := ⟨t, ⟨docs, .ok turn.fresh⟩, []⟩)
        (by exact rfl) { row with deletedAt := some turn.env.now } docId
      rw [hstored, hdocs]
      exact ⟨congrArg t.put hsent, congrArg Backend.docs hremote⟩

end MeJournal
