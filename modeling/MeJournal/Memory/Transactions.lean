import MeJournal.Lib.Triple
import MeJournal.Memory.Session

/-!
# The write methods are atomic

`DECISIONS.md`: the write methods own the transaction boundary, so that no Supermemory document
is left without its local row.

* `Untouched`, `Fresh`, `Ready`, `Assigned`, `Called`, `Landed` — where a method stands.
* one triple for each statement (`write_spec`, `flushSession_spec`, `callClient_spec`,
  `commit_spec`, …) and for each method (`createTx_spec`, …).  From `Called` on nothing raises.
* `request_atomic` — an exception comes before the client call, and only rows that the database
  has accepted are pushed.
-/

namespace MeJournal.Transactions

variable {R : Type}

/-! ## The property -/

/-- The database accepts the row, inserted or updated, beside the committed rows. -/
def DbAccepts (pf : Platform) (w : World R) (row : Memory) : Prop :=
  (∃ t, insertOnConflictDoNothing pf w.memories row = .ok (some t)) ∨
    ∃ t, flush pf w.memories row = .ok t

/-- After `h`, the row is one that the database has accepted. -/
def Accepted (w : World R) (h : List TxEffect) (row : Memory) : Prop :=
  row ∈ w.memories.rows ∨ .wrote row ∈ h

/-- The call carries the data of the row. -/
def Carries (c : ClientCall) (row : Memory) : Prop :=
  c = .add row.id row.text [containerTag row.userId] (buildMetadata row) ∨
    ∃ docId changed, c = .patch row.id docId (if changed = true then some row.text else none)
      (buildMetadata row)

/-- What a request may do after `h`. -/
def Allowed (pf : Platform) (w : World R) (h : List TxEffect) : TxEffect → Prop
  | .wrote row => DbAccepts pf w row
  | .call c => c.pushes = true → ∃ row, Accepted w h row ∧ Carries c row

/-! ## Assertions -/

/-- Nothing has left the session. -/
structure Untouched (w : World R) (h : List TxEffect) (s : DbSession R) : Prop where
  committed : s.committed = w.memories
  remote : s.remote = w.remote
  calls : ∀ c, .call c ∉ h

/-- Nothing has been written. -/
structure Fresh (w : World R) (h : List TxEffect) (s : DbSession R) : Prop
    extends Untouched w h s where
  working : s.working = w.memories
  clean : s.dirty = none

/-- The row is accepted and nothing waits for a flush. -/
structure Ready (w : World R) (row : Memory) (h : List TxEffect) (s : DbSession R) : Prop
    extends Untouched w h s where
  found : s.working.find row.id = some row
  accepted : Accepted w h row
  clean : s.dirty = none

/-- The loaded row has become `row`, and nothing has been written. -/
structure Assigned (w : World R) (row : Memory) (h : List TxEffect) (s : DbSession R) : Prop
    extends Untouched w h s where
  working : s.working = w.memories
  dirty : s.dirty = some row

/-- Every call made is for the row `id`, and a commit keeps it. -/
structure Called (id : UUID) (h : List TxEffect) (s : DbSession R) : Prop where
  present : s.working.has id = true
  calls : ∀ c, .call c ∈ h → c.memoryId = id

/-- Every call made is for a committed row. -/
def Landed (h : List TxEffect) (s : DbSession R) : Prop :=
  ∀ c, .call c ∈ h → s.committed.has c.memoryId = true

/-! ## What each statement does -/

section Statements

variable {α : Type} {pf : Platform} {w : World R} {row : Memory} {h : List TxEffect}
  {E : ServiceError → List TxEffect → DbSession R → Prop}

theorem Untouched.wrote {s s' : DbSession R} (hs : Untouched w h s)
    (hcommitted : s'.committed = s.committed) (hremote : s'.remote = s.remote) :
    Untouched w (h ++ [.wrote row]) s' where
  committed := hcommitted.trans hs.committed
  remote := hremote.trans hs.remote
  calls c hc := by
    rcases List.mem_append.1 hc with hc | hc
    · exact hs.calls c hc
    · cases List.mem_singleton.1 hc

/-- An exception before anything has left the session. -/
theorem raise_spec {Q : α → List TxEffect → DbSession R → Prop} (e : ServiceError) :
    Gen.Triple (Allowed pf w) (Fresh w) (Gen.raise e : Tx R α) Q fun _ => Untouched w :=
  Gen.triple_raise fun _ _ hs => hs.toUntouched

/-- A return without a client call. -/
theorem return_spec (a : α) :
    Gen.Triple (Allowed pf w) (Fresh w) (pure a : Tx R α) (fun _ => Landed) E :=
  Gen.triple_pure fun _ _ hs c hc => absurd hc (hs.calls c)

theorem ofExcept_spec (r : Except ServiceError α) :
    Gen.Triple (Allowed pf w) (Fresh w) (Gen.ofExcept r : Tx R α)
      (fun a h s => r = .ok a ∧ Fresh w h s) fun _ => Untouched w :=
  Gen.triple_ofExcept (fun _ ha _ _ hs => ⟨ha, hs⟩) fun _ _ _ _ hs => hs.toUntouched

theorem select_spec (query : MemoryTable → α) :
    Gen.Triple (Allowed pf w) (Fresh w) (select query : Tx R α)
      (fun a h s => query w.memories = a ∧ Fresh w h s) E :=
  Gen.triple_read fun _ s hs => ⟨by rw [hs.working], hs⟩

/-- A statement that the database accepts. -/
theorem write_spec {memories : MemoryTable} (haccepts : DbAccepts pf w row)
    (hfound : memories.find row.id = some row) :
    Gen.Triple (Allowed pf w) (Untouched w) (write memories row : Tx R Unit)
      (fun _ => Ready w row) E := by
  refine Gen.Triple.bind (S := fun _ h s => Untouched w h s ∧
      s.working.find row.id = some row ∧ s.dirty = none)
    (Gen.triple_modify fun _ s hs => ⟨⟨hs.committed, hs.remote, hs.calls⟩, hfound, rfl⟩)
    fun _ => Gen.triple_emit fun ys s ⟨hs, hfound, hclean⟩ => ⟨haccepts, ?_⟩
  exact ⟨hs.wrote rfl rfl, hfound, Or.inr (by simp), hclean⟩

theorem insertReturning_spec (row : Memory) :
    Gen.Triple (Allowed pf w) (Fresh w) (insertReturning pf row : Tx R (Option UUID))
      (fun newId h s => newId = none ∧ Fresh w h s ∨ newId = some row.id ∧ Ready w row h s)
      fun _ => Untouched w := by
  refine (select_spec _).bind fun inserted => Gen.triple_and fun hinserted => ?_
  match inserted, hinserted with
  | .error e, _ => exact raise_spec e
  | .ok none, _ => exact Gen.triple_pure fun _ _ hs => Or.inl ⟨rfl, hs⟩
  | .ok (some memories), hinserted =>
    have hfound : memories.find row.id = some row := by
      rw [Table.find_insert? (insertOnConflictDoNothing_inserted hinserted).2, if_pos rfl]
    have hwrite := write_spec (E := fun _ => Untouched w) (Or.inl ⟨memories, hinserted⟩) hfound
    exact (hwrite.pre fun _ _ hs => Fresh.toUntouched hs).bind fun _ =>
      Gen.triple_pure fun _ _ hs => Or.inr ⟨rfl, hs⟩

theorem assign_spec (row : Memory) :
    Gen.Triple (Allowed pf w) (Fresh w) (assign row : Tx R Unit) (fun _ => Assigned w row) E :=
  Gen.triple_modify fun _ _ hs => ⟨⟨hs.committed, hs.remote, hs.calls⟩, hs.working, rfl⟩

theorem reassign_spec (row' : Memory) :
    Gen.Triple (Allowed pf w) (Assigned w row) (assign row' : Tx R Unit)
      (fun _ => Assigned w row') E :=
  Gen.triple_modify fun _ _ hs => ⟨⟨hs.committed, hs.remote, hs.calls⟩, hs.working, rfl⟩

theorem writeRow_spec (hpresent : w.memories.has row.id = true) :
    Gen.Triple (Allowed pf w) (Assigned w row) (writeRow pf row : Tx R Unit) (fun _ => Ready w row)
      fun _ => Untouched w := by
  refine Gen.Triple.bind (S := fun flushed h s => flush pf w.memories row = flushed ∧
      Assigned w row h s)
    (Gen.triple_read fun _ s hs => ⟨by rw [hs.working], hs⟩)
    fun flushed => Gen.triple_and fun hflushed => ?_
  match flushed, hflushed with
  | .error e, _ => exact Gen.triple_raise fun _ _ hs => Assigned.toUntouched hs
  | .ok memories, hflushed =>
    obtain ⟨old, hold, hid⟩ := Table.has_iff.1 hpresent
    have hfound : memories.find row.id = some row := by
      rw [flush_ok hflushed]
      exact Table.find_eq_some.2 ⟨Table.mem_put_self hold hid, rfl⟩
    have haccepts : DbAccepts pf w row := Or.inr ⟨memories, hflushed⟩
    exact (write_spec haccepts hfound).pre fun _ _ hs => Assigned.toUntouched hs

theorem flushSession_spec (hpresent : w.memories.has row.id = true) :
    Gen.Triple (Allowed pf w) (Assigned w row) (flushSession pf : Tx R Unit) (fun _ => Ready w row)
      fun _ => Untouched w := by
  refine Gen.Triple.bind (S := fun dirty h s => dirty = some row ∧ Assigned w row h s)
    (Gen.triple_read fun _ s hs => ⟨hs.dirty, hs⟩) fun dirty => Gen.triple_and fun hdirty => ?_
  subst hdirty
  exact writeRow_spec hpresent

/-- A flush with nothing to write. -/
theorem flushSession_ready :
    Gen.Triple (Allowed pf w) (Ready w row) (flushSession pf : Tx R Unit) (fun _ => Ready w row)
      E := by
  refine Gen.Triple.bind (S := fun dirty h s => dirty = none ∧ Ready w row h s)
    (Gen.triple_read fun _ s hs => ⟨hs.clean, hs⟩) fun dirty => Gen.triple_and fun hdirty => ?_
  subst hdirty
  exact Gen.triple_pure fun _ _ hs => hs

theorem flushFailed_spec {Q : Unit → List TxEffect → DbSession R → Prop} (textChanged : Bool)
    (e : ServiceError) :
    Gen.Triple (Allowed pf w) (Untouched w) (flushFailed textChanged e : Tx R Unit) Q
      fun _ => Untouched w := by
  have hraise : ∀ e, Gen.Triple (Allowed pf w) (Untouched w) (Gen.raise e : Tx R Unit) Q
      fun _ => Untouched w := fun e => Gen.triple_raise fun _ _ hs => hs
  unfold flushFailed
  split
  · exact Gen.Triple.bind (S := fun _ => Untouched w)
      (Gen.triple_modify fun _ _ hs => ⟨hs.committed, hs.remote, hs.calls⟩) fun _ => hraise _
  · exact hraise _

/-- A helper that makes one client call, which is allowed, for the row `id`. -/
theorem callClient_spec {P : List TxEffect → DbSession R → Prop} {id : UUID}
    {send : World R → Memory × World R} {c : ClientCall}
    (hsend : ∀ w', (send w').2.calls = w'.calls ++ [c]) (hid : c.memoryId = id)
    (hP : ∀ h s, P h s → Untouched w h s ∧ s.working.has id = true ∧ Allowed pf w h (.call c)) :
    Gen.Triple (Allowed pf w) P (callClient send : Tx R Unit) (fun _ => Called id) E := by
  intro h s hs
  obtain ⟨huntouched, hpresent, hallowed⟩ := hP h s hs
  have hemitted : (callClient send s).emitted = [.call c] := by
    simp only [callClient, hsend, List.nil_append, List.map_cons, List.map_nil]
  rw [hemitted]
  refine ⟨⟨hallowed, trivial⟩, hpresent, fun c' hc' => ?_⟩
  rcases List.mem_append.1 hc' with hc' | hc'
  · exact absurd hc' (huntouched.calls c')
  · cases List.mem_singleton.1 hc'
    exact hid

theorem DbSession.has_flushed (s : DbSession R) (id : UUID) :
    s.flushed.has id = s.working.has id := by
  unfold DbSession.flushed
  cases s.dirty with
  | none => rfl
  | some row => exact Table.has_put _ _ _

/-- **After the call nothing fails**: the commit keeps the row and the refresh finds it. -/
theorem commit_spec {id : UUID} :
    Gen.Triple (Allowed pf w) (Called id) (commit : Tx R Unit)
      (fun _ h s => s.committed.has id = true ∧ Landed h s) E := by
  refine Gen.triple_modify fun h s hs => ?_
  have hpresent : s.flushed.has id = true := (s.has_flushed id).trans hs.present
  exact ⟨hpresent, fun c hc => hs.calls c hc ▸ hpresent⟩

theorem refresh_spec {id : UUID} :
    Gen.Triple (Allowed pf w) (fun h s => s.committed.has id = true ∧ Landed h s)
      (refresh id : Tx R Memory) (fun _ => Landed) E := by
  refine Gen.Triple.bind (S := fun found h s => (∃ row, found = some row) ∧ Landed h s)
    (Gen.triple_read fun _ s ⟨hpresent, hs⟩ => ⟨?_, hs⟩)
    fun found => Gen.triple_and fun hfound => ?_
  · cases hfind : s.committed.find id with
    | some row => exact ⟨row, rfl⟩
    | none =>
      obtain ⟨old, hold, hid⟩ := Table.has_iff.1 hpresent
      exact absurd hid (Table.find_eq_none.1 hfind old hold)
  · obtain ⟨row, rfl⟩ := hfound
    exact Gen.triple_pure fun _ _ hs => hs

/-- The end of a method that returns the row. -/
theorem commit_refresh_spec {id : UUID} :
    Gen.Triple (Allowed pf w) (Called id) (do commit; refresh id : Tx R Memory) (fun _ => Landed)
      E :=
  commit_spec.bind fun _ => refresh_spec

end Statements

/-! ## What each method does -/

section Methods

variable {w : World R} (pf : Platform) (client : MemoryClient R) (env : Env)

/-- The one call of `pushRow`. -/
theorem pushRow_call (row : Memory) (contentChanged : Bool) :
    ∃ c, (∀ w', (pushRow client env row contentChanged w').2.calls = w'.calls ++ [c]) ∧
      c.memoryId = row.id ∧ Carries c row := by
  unfold pushRow
  cases row.externalId with
  | none => exact ⟨_, sendToSupermemoryAdd_calls client env row, rfl, Or.inl rfl⟩
  | some docId =>
    exact ⟨_, sendToSupermemoryPatch_calls client env row docId contentChanged, rfl,
      Or.inr ⟨docId, contentChanged, rfl⟩⟩

/-- A push of an accepted row, up to the end of the method. -/
theorem push_spec {row : Memory} {send : World R → Memory × World R} {c : ClientCall}
    {E : ServiceError → List TxEffect → DbSession R → Prop}
    (hsend : ∀ w', (send w').2.calls = w'.calls ++ [c]) (hid : c.memoryId = row.id)
    (hcarries : Carries c row) :
    Gen.Triple (Allowed pf w) (Ready w row) (callClient send : Tx R Unit)
      (fun _ => Called row.id) E :=
  callClient_spec hsend hid fun _ _ hs =>
    ⟨hs.toUntouched, Table.has_iff.2 ⟨row, Table.find_eq_some.1 hs.found⟩,
      fun _ => ⟨row, hs.accepted, hcarries⟩⟩

/-- `create_memory` from its flush on. -/
theorem createPush_spec {E : ServiceError → List TxEffect → DbSession R → Prop} (row : Memory) :
    Gen.Triple (Allowed pf w) (Ready w row)
      (do
        flushSession pf
        let loaded ← select fun memories => memories.find row.id
        match loaded with
        | none => Gen.raise .noResultFound
        | some row => do
          callClient (sendToSupermemoryAdd client env row)
          commit
          refresh row.id : Tx R Memory)
      (fun _ => Landed) E := by
  refine flushSession_ready.bind fun _ => ?_
  refine Gen.Triple.bind (S := fun loaded h s => loaded = some row ∧ Ready w row h s)
    (Gen.triple_read fun _ s hs => ⟨hs.found, hs⟩) fun loaded => Gen.triple_and fun hloaded => ?_
  subst hloaded
  exact (push_spec pf (sendToSupermemoryAdd_calls client env row) rfl (Or.inl rfl)).bind fun _ =>
    commit_refresh_spec

theorem createTx_spec (userId : UUID) (args : CreateArgs) :
    Gen.Triple (Allowed pf w) (Fresh w) (createTx pf client env userId args)
      (fun _ => Landed) fun _ => Untouched w := by
  refine (ofExcept_spec _).bind fun text => Gen.triple_and fun _ => ?_
  refine (select_spec _).bind fun existing => Gen.triple_and fun _ => ?_
  match existing with
  | some existing =>
    dsimp only
    split
    · exact raise_spec _
    · exact return_spec existing
  | none =>
    refine (insertReturning_spec _).bind fun newId => ?_
    match newId with
    | none =>
      refine Gen.Triple.pre (P := Fresh w) ?_ fun _ _ hs => ?_
      · refine (select_spec _).bind fun existing => Gen.triple_and fun _ => ?_
        match existing with
        | some existing => exact return_spec existing
        | none => exact raise_spec _
      · rcases hs with ⟨_, hs⟩ | ⟨hnone, _⟩
        · exact hs
        · cases hnone
    | some newId =>
      refine Gen.Triple.pre
        (P := fun h s => newId = (newRow pf env userId args text).id ∧
          Ready w (newRow pf env userId args text) h s)
        (Gen.triple_and fun hid => ?_) fun _ _ hs => ?_
      · subst hid
        exact createPush_spec pf client env _
      · rcases hs with ⟨hnone, _⟩ | ⟨hsome, hs⟩
        · cases hnone
        · exact ⟨Option.some.inj hsome, hs⟩

theorem updateTx_spec (userId memoryId : UUID) (args : UpdateArgs) :
    Gen.Triple (Allowed pf w) (Fresh w) (updateTx pf client env userId memoryId args)
      (fun _ => Landed) fun _ => Untouched w := by
  refine (select_spec _).bind fun found => Gen.triple_and fun hfound => ?_
  match found, hfound with
  | none, _ => exact raise_spec _
  | some row, hfound =>
    obtain ⟨hrow, -⟩ := findOwned_eq_some.1 (Option.filter_eq_some_iff.1 hfound).1
    refine (ofExcept_spec _).bind fun _ => Gen.triple_and fun _ => ?_
    refine (ofExcept_spec _).bind fun p => Gen.triple_and fun hpatch => ?_
    obtain ⟨row', textChanged⟩ := p
    have hpresent : w.memories.has (patchColumns row' args).id = true :=
      Table.has_iff.2 ⟨row, hrow, (patchText_id hpatch).symm⟩
    obtain ⟨c, hsend, hid, hcarries⟩ := pushRow_call client env (patchColumns row' args) textChanged
    refine (assign_spec _).bind fun _ => (reassign_spec _).bind fun _ => ?_
    refine ((flushSession_spec hpresent).handle (flushFailed_spec textChanged)).bind fun _ => ?_
    exact (push_spec pf hsend hid hcarries).bind fun _ => commit_refresh_spec

/-- A committed row, loaded. -/
theorem Fresh.ready {row : Memory} {h : List TxEffect} {s : DbSession R} (hs : Fresh w h s)
    (hrow : row ∈ w.memories.rows) : Ready w row h s where
  toUntouched := hs.toUntouched
  found := by rw [hs.working]; exact Table.find_eq_some.2 ⟨hrow, rfl⟩
  accepted := Or.inl hrow
  clean := hs.clean

theorem removeTx_spec {E : ServiceError → List TxEffect → DbSession R → Prop} (row : Memory)
    (hpresent : w.memories.has row.id = true) :
    Gen.Triple (Allowed pf w) (Assigned w row) (removeTx client row) (fun _ => Called row.id)
      E := by
  unfold removeTx
  split
  · exact Gen.triple_pure fun _ _ hs =>
      ⟨by rw [hs.working]; exact hpresent, fun c hc => absurd hc (hs.calls c)⟩
  · exact callClient_spec (sendDelete_calls client row _) rfl fun _ _ hs =>
      ⟨hs.toUntouched, by rw [hs.working]; exact hpresent, nofun⟩

theorem deleteTx_spec (userId memoryId : UUID) :
    Gen.Triple (Allowed pf w) (Fresh w) (deleteTx client env userId memoryId)
      (fun _ => Landed) fun _ => Untouched w := by
  refine (select_spec _).bind fun found => Gen.triple_and fun hfound => ?_
  match found, hfound with
  | none, _ => exact raise_spec _
  | some row, hfound =>
    dsimp only
    split
    · exact return_spec ()
    have hpresent : w.memories.has row.id = true :=
      Table.has_iff.2 ⟨row, (findOwned_eq_some.1 hfound).1, rfl⟩
    refine (assign_spec _).bind fun _ => ?_
    refine (removeTx_spec pf client { row with deletedAt := some env.now } hpresent).bind
      fun _ => ?_
    exact commit_spec.post fun _ _ _ hs => hs.2

theorem settleTx_spec {E : ServiceError → List TxEffect → DbSession R → Prop} (row : Memory) :
    Gen.Triple (Allowed pf w) (Ready w row) (settleTx client env row) (fun _ => Called row.id)
      E := by
  have hpresent : ∀ h s, Ready w row h s → s.working.has row.id = true :=
    fun _ _ hs => Table.has_iff.2 ⟨row, Table.find_eq_some.1 hs.found⟩
  unfold settleTx
  split
  · exact Gen.triple_pure fun _ _ hs =>
      ⟨hpresent _ _ hs, fun c hc => absurd hc (hs.calls c)⟩
  · obtain ⟨c, hsend, hid, hcarries⟩ := pushRow_call client env row true
    exact push_spec pf hsend hid hcarries
  split
  · refine Gen.triple_modify fun h s hs => ?_
    exact ⟨hpresent h s hs, fun c hc => absurd hc (hs.calls c)⟩
  · exact callClient_spec (retryDelete_calls client row _) rfl fun _ _ hs =>
      ⟨hs.toUntouched, hpresent _ _ hs, nofun⟩

theorem syncTx_spec (userId memoryId : UUID) :
    Gen.Triple (Allowed pf w) (Fresh w) (syncTx client env userId memoryId)
      (fun _ => Landed) fun _ => Untouched w := by
  refine (select_spec _).bind fun found => Gen.triple_and fun hfound => ?_
  match found, hfound with
  | none, _ => exact raise_spec _
  | some row, hfound =>
    dsimp only
    split
    · exact return_spec row
    have hrow : row ∈ w.memories.rows := (findOwned_eq_some.1 hfound).1
    have hsettle := settleTx_spec (w := w) (E := fun _ => Untouched w) pf client env row
    exact (hsettle.pre fun _ _ hs => Fresh.ready hs hrow).bind fun _ => commit_refresh_spec

theorem requestTx_spec (req : Request) :
    Gen.Triple (Allowed pf w) (Fresh w) (requestTx pf client env req)
      (fun _ => Landed) fun _ => Untouched w := by
  cases req with
  | create userId args => exact (createTx_spec pf client env userId args).map
  | update userId memoryId args => exact (updateTx_spec pf client env userId memoryId args).map
  | delete userId memoryId => exact (deleteTx_spec pf client env userId memoryId).map
  | sync userId memoryId => exact (syncTx_spec pf client env userId memoryId).map

theorem fresh_start : Fresh w [] (DbSession.start w) :=
  ⟨⟨rfl, rfl, fun _ => List.not_mem_nil⟩, rfl, rfl⟩

/-- **Each write method is atomic.**  When it raises, the committed rows and the remote state are
as before and no client call was made.  Every `add` and `patch` carries a row that the database
has accepted before the call; what it accepts passes the constraints.  When the method returns,
every call it made is for a committed row. -/
theorem request_atomic (w : World R) (req : Request) :
    let run := requestTx pf client env req (DbSession.start w)
    (∀ e, run.result = .error e → run.state.committed = w.memories ∧
      run.state.remote = w.remote ∧ ∀ c, .call c ∉ run.emitted) ∧
    (∀ before c after, run.emitted = before ++ .call c :: after → c.pushes = true →
      ∃ row, (row ∈ w.memories.rows ∨ .wrote row ∈ before) ∧ Carries c row) ∧
    (∀ row, .wrote row ∈ run.emitted → DbAccepts pf w row) ∧
    ∀ reply, run.result = .ok reply → ∀ c, .call c ∈ run.emitted →
      run.state.committed.has c.memoryId = true := by
  intro run
  obtain ⟨hallowed, hends⟩ := requestTx_spec pf client env req [] _ (fresh_start (w := w))
  rw [List.nil_append] at hends
  refine ⟨fun e he => ?_, fun before c after heq => ?_, fun row hrow => ?_, fun reply hreply => ?_⟩
  · have huntouched : Untouched w run.emitted run.state := by rwa [he] at hends
    exact ⟨huntouched.committed, huntouched.remote, huntouched.calls⟩
  · rw [heq] at hallowed
    exact hallowed.mid
  · obtain ⟨before, after, heq⟩ := List.append_of_mem hrow
    rw [heq] at hallowed
    exact hallowed.mid
  · have hlanded : Landed run.emitted run.state := by rwa [hreply] at hends
    exact hlanded

end Methods

end MeJournal.Transactions
