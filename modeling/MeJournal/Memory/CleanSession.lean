import MeJournal.Lib.Triple
import MeJournal.Memory.Session

/-!
# One session for several calls

A chat request runs the tools of its agent on one session, one call after the other.

* `Clean` — the session sees the committed rows and has nothing to flush, as a new one does.
* `createTx_leaves`, `updateTx_leaves` — a write method leaves the session clean, unless the driver
  or the database refused a text.
-/

namespace MeJournal.Transactions

variable {R : Type}

/-- The session stands where a new one would. -/
structure Clean (s : DbSession R) : Prop where
  working : s.working = s.committed
  settled : s.dirty = none

theorem clean_start (w : World R) : Clean (DbSession.start w) := ⟨rfl, rfl⟩

/-- A clean session is the new session of its committed rows. -/
theorem Clean.eq_start {s : DbSession R} (h : Clean s) (calls : List ClientCall) :
    s = DbSession.start ⟨s.committed, s.remote, calls⟩ := by
  obtain ⟨committed, working, dirty, remote⟩ := s
  obtain ⟨hworking, hdirty⟩ := h
  cases hworking
  cases hdirty
  rfl

/-! ## What each statement does -/

section Statements

variable {α : Type}

/-- The session is clean. -/
abbrev CleanAt (_ : List TxEffect) (s : DbSession R) : Prop := Clean s

/-- Only a refused text leaves something behind. -/
abbrev CleanUnlessRefused (e : ServiceError) (_ : List TxEffect) (s : DbSession R) : Prop :=
  (∃ d : DbError, e = .raised d.exc) ∨ Clean s

/-- A triple on the session alone. -/
abbrev Leaves (P : List TxEffect → DbSession R → Prop) (g : Tx R α)
    (Q : α → List TxEffect → DbSession R → Prop) : Prop :=
  Gen.Triple (fun _ _ => True) P g Q CleanUnlessRefused

theorem leaves_raise {Q : α → List TxEffect → DbSession R → Prop} (e : ServiceError) :
    Leaves CleanAt (Gen.raise e : Tx R α) Q :=
  Gen.triple_raise fun _ _ hs => Or.inr hs

theorem leaves_return (a : α) : Leaves CleanAt (pure a : Tx R α) fun _ => CleanAt :=
  Gen.triple_pure fun _ _ hs => hs

theorem leaves_ofExcept (r : Except ServiceError α) :
    Leaves CleanAt (Gen.ofExcept r : Tx R α) fun _ => CleanAt :=
  Gen.triple_ofExcept (fun _ _ _ _ hs => hs) fun _ _ _ _ hs => Or.inr hs

theorem leaves_select {P : List TxEffect → DbSession R → Prop} (query : MemoryTable → α) :
    Leaves P (select query : Tx R α) fun _ => P :=
  Gen.triple_read fun _ _ hs => hs

theorem leaves_commit {P : List TxEffect → DbSession R → Prop} :
    Leaves P (commit : Tx R Unit) fun _ => CleanAt :=
  Gen.triple_modify fun _ _ _ => ⟨rfl, rfl⟩

theorem leaves_refresh (id : UUID) :
    Leaves CleanAt (refresh id : Tx R Memory) fun _ => CleanAt := by
  refine Gen.Triple.bind (S := fun _ => CleanAt) (Gen.triple_read fun _ _ hs => hs) fun found => ?_
  match found with
  | none => exact leaves_raise _
  | some row => exact leaves_return row

/-- A statement that leaves its session to a later commit. -/
abbrev Anyhow (_ : List TxEffect) (_ : DbSession R) : Prop := True

theorem leaves_callClient {P : List TxEffect → DbSession R → Prop}
    (send : World R → Memory × World R) :
    Leaves P (callClient send : Tx R Unit) fun _ => Anyhow :=
  fun h _ _ => ⟨Gen.allAllowed_of_forall (fun _ _ => trivial) h _, trivial⟩

theorem leaves_commit_refresh {P : List TxEffect → DbSession R → Prop} (id : UUID) :
    Leaves P (do commit; refresh id : Tx R Memory) fun _ => CleanAt :=
  leaves_commit.bind fun _ => leaves_refresh id

/-- The loaded row is in the table and has no changes. -/
abbrev LoadedAt (row : Memory) (_ : List TxEffect) (s : DbSession R) : Prop :=
  s.working.find row.id = some row ∧ s.dirty = none

theorem leaves_write {P : List TxEffect → DbSession R → Prop} {memories : MemoryTable}
    {row : Memory} (hfound : memories.find row.id = some row) :
    Leaves P (write memories row : Tx R Unit) fun _ => LoadedAt row :=
  Gen.Triple.bind (S := fun _ => LoadedAt row)
    (Gen.triple_modify fun _ _ _ => ⟨hfound, rfl⟩)
    fun _ => Gen.triple_emit fun _ _ hs => ⟨trivial, hs⟩

theorem leaves_insertReturning (pf : Platform) (row : Memory) :
    Leaves CleanAt (insertReturning pf row : Tx R (Option UUID)) fun newId h s =>
      newId = none ∧ CleanAt h s ∨ newId = some row.id ∧ LoadedAt row h s := by
  refine Gen.Triple.bind (S := fun inserted h s =>
      (∃ memories, insertOnConflictDoNothing pf memories row = inserted) ∧ CleanAt h s)
    (Gen.triple_read fun _ s hs => ⟨⟨s.working, rfl⟩, hs⟩)
    fun inserted => Gen.triple_and fun hinserted => ?_
  match inserted, hinserted with
  | .error e, _ => exact leaves_raise e
  | .ok none, _ => exact Gen.triple_pure fun _ _ hs => Or.inl ⟨rfl, hs⟩
  | .ok (some memories), ⟨_, hinserted⟩ =>
    have hfound : memories.find row.id = some row := by
      rw [Table.find_insert? (insertOnConflictDoNothing_inserted hinserted).2, if_pos rfl]
    exact (leaves_write hfound).bind fun _ => Gen.triple_pure fun _ _ hs => Or.inr ⟨rfl, hs⟩

/-- What a flush may raise. -/
abbrev FlushRaises (e : ServiceError) (_ : List TxEffect) (_ : DbSession R) : Prop :=
  (∃ d : DbError, e = .raised d.exc) ∨ ∃ constraint, e = .integrity constraint

theorem flushSession_raises (pf : Platform) :
    Gen.Triple (fun _ _ => True) Anyhow (flushSession pf : Tx R Unit) (fun _ => Anyhow)
      FlushRaises := by
  refine Gen.Triple.bind (S := fun _ => Anyhow) (Gen.triple_read fun _ _ _ => trivial)
    fun dirty => ?_
  match dirty with
  | none => exact Gen.triple_pure fun _ _ _ => trivial
  | some row =>
    refine Gen.Triple.bind (S := fun flushed _ _ => ∃ memories, flush pf memories row = flushed)
      (Gen.triple_read fun _ s _ => ⟨s.working, rfl⟩) fun flushed => ?_
    match flushed with
    | .error e => exact Gen.triple_raise fun _ _ ⟨_, hflush⟩ => flush_error hflush
    | .ok memories =>
      exact Gen.Triple.bind (S := fun _ => Anyhow) (Gen.triple_modify fun _ _ _ => trivial)
        fun _ => Gen.triple_emit fun _ _ _ => ⟨trivial, trivial⟩

theorem leaves_flush (pf : Platform) (textChanged : Bool) :
    Leaves Anyhow ((flushSession pf).handle (flushFailed textChanged) : Tx R Unit)
      fun _ => Anyhow := by
  refine (flushSession_raises pf).handle fun e => ?_
  match e with
  | .integrity constraint =>
    -- the rollback comes before the exception
    exact Gen.Triple.bind (S := fun _ => CleanAt)
      (Gen.triple_modify fun _ _ _ => ⟨rfl, rfl⟩) fun _ => leaves_raise _
  | .notFound _ | .duplicate _ | .validation _ | .idempotencyReused _ | .noResultFound
  | .raised _ =>
    refine Gen.triple_raise fun _ _ he => he.imp_right ?_
    rintro ⟨_, hinteg⟩
    cases hinteg

end Statements

/-! ## The methods -/

section Methods

variable (pf : Platform) (client : MemoryClient R) (env : Env)

theorem createTx_leaves (userId : UUID) (args : CreateArgs) :
    Leaves CleanAt (createTx pf client env userId args) fun _ => CleanAt := by
  refine (leaves_ofExcept _).bind fun text => (leaves_select _).bind fun existing => ?_
  match existing with
  | some existing =>
    dsimp only
    split
    · exact leaves_raise _
    · exact leaves_return existing
  | none =>
    refine (leaves_insertReturning pf _).bind fun newId => ?_
    match newId with
    | none =>
      refine Gen.Triple.pre (P := CleanAt) ?_ fun _ _ hs => ?_
      · refine (leaves_select _).bind fun existing => ?_
        match existing with
        | some existing => exact leaves_return existing
        | none => exact leaves_raise _
      · rcases hs with ⟨-, hs⟩ | ⟨hnone, -⟩
        · exact hs
        · cases hnone
    | some newId =>
      refine Gen.Triple.pre (P := fun h s => newId = (newRow pf env userId args text).id ∧
          LoadedAt (newRow pf env userId args text) h s)
        (Gen.triple_and fun hid => ?_) fun _ _ hs => ?_
      · subst hid
        refine Gen.Triple.bind (S := fun _ => LoadedAt (newRow pf env userId args text)) ?_
          fun _ => ?_
        · refine Gen.Triple.bind (S := fun dirty h s => dirty = none ∧ LoadedAt _ h s)
            (Gen.triple_read fun _ _ hs => ⟨hs.2, hs⟩) fun dirty => Gen.triple_and fun hdirty => ?_
          subst hdirty
          exact Gen.triple_pure fun _ _ hs => hs
        refine Gen.Triple.bind (S := fun loaded _ _ => ∃ row, loaded = some row)
          (Gen.triple_read fun _ _ hs => ⟨_, hs.1⟩) fun loaded => ?_
        match loaded with
        | none =>
          refine Gen.triple_raise fun _ _ hs => ?_
          obtain ⟨_, hnone⟩ := hs
          cases hnone
        | some row => exact (leaves_callClient _).bind fun _ => leaves_commit_refresh row.id
      · rcases hs with ⟨hnone, -⟩ | ⟨hsome, hs⟩
        · cases hnone
        · exact ⟨Option.some.inj hsome, hs⟩

theorem updateTx_leaves (userId memoryId : UUID) (args : UpdateArgs) :
    Leaves CleanAt (updateTx pf client env userId memoryId args) fun _ => CleanAt := by
  refine (leaves_select _).bind fun found => ?_
  match found with
  | none => exact leaves_raise _
  | some row =>
    refine (leaves_ofExcept _).bind fun _ => (leaves_ofExcept _).bind fun p => ?_
    refine Gen.Triple.bind (S := fun _ => Anyhow) (Gen.triple_modify fun _ _ _ => trivial)
      fun _ => ?_
    refine Gen.Triple.bind (S := fun _ => Anyhow) (Gen.triple_modify fun _ _ _ => trivial)
      fun _ => ?_
    exact (leaves_flush pf _).bind fun _ => (leaves_callClient _).bind fun _ =>
      leaves_commit_refresh _

/-- A run from a new session. -/
theorem Leaves.clean {α : Type} {g : Tx R α} (h : Leaves CleanAt g fun _ => CleanAt) (w : World R) :
    (∃ d : DbError, (g (DbSession.start w)).result = .error (.raised d.exc)) ∨
      Clean (g (DbSession.start w)).state := by
  obtain ⟨-, hends⟩ := h [] _ (clean_start w)
  cases hr : (g (DbSession.start w)).result with
  | ok a =>
    rw [hr] at hends
    exact Or.inr hends
  | error e =>
    rw [hr] at hends
    rcases hends with ⟨d, rfl⟩ | hclean
    · exact Or.inl ⟨d, rfl⟩
    · exact Or.inr hclean

end Methods

end MeJournal.Transactions
