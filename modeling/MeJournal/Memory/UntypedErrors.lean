import MeJournal.Memory.ConcurrentCreates
import MeJournal.Memory.IdempotencyKey

/-!
# Which errors a create surfaces

A `create_memory` returns a row or raises `MemoryValidationError` or `MemoryIdempotencyReused`,
or else it surfaces what the database raised.

* `move_typed_iff` — one move, exactly: the `INSERT` fails on a text or a constraint, or the
  re-read finds no row.
* `typedReplies_iff` — every reply along an interleaving.
-/

namespace MeJournal

variable {R : Type}

/-! ## The property -/

/-- A row, `MemoryValidationError` or `MemoryIdempotencyReused`. -/
def typedReply : Except ServiceError Memory → Bool
  | .ok _ => true
  | .error (.validation _) => true
  | .error (.idempotencyReused _) => true
  | .error _ => false

/-- A create that has ended has a typed reply. -/
def MemoryProc.typed : MemoryProc → Bool
  | .create ⟨_, _, .done reply⟩ => typedReply reply
  | _ => true

def TypedReplies (s : MemoryServer R) : Prop := ∀ p ∈ s.procs, p.typed = true

instance (s : MemoryServer R) : Decidable (TypedReplies s) :=
  inferInstanceAs (Decidable (∀ p ∈ s.procs, _))

/-- The texts of `row` are refused, or its `INSERT` waits for nobody, meets no live row with the
hash, and finds its primary key taken or its user unknown. -/
def InsertFails (pf : Platform) (users : UUID → Bool) (db : MemoryDb R) (row : Memory) : Prop :=
  row.refused pf ≠ none ∨
    (db.insertWaits row = false ∧
      findByHash db.world.memories row.userId row.contentHash = none ∧
      (db.world.memories.has row.id = true ∨ users row.userId = false))

/-- The next move of `p` is an `INSERT` that fails, or a re-read after the live row with the
hash has gone. -/
def MemoryProc.Exposed (pf : Platform) (users : UUID → Bool) (env : Env) (db : MemoryDb R) :
    MemoryProc → Prop
  | .create ⟨userId, args, .inserting text⟩ =>
    InsertFails pf users db (newRow pf env userId args text)
  | .create ⟨userId, _, .rereading digest⟩ => findByHash db.world.memories userId digest = none
  | _ => False

/-- The event is such a move. -/
def Exposes (pf : Platform) (users : UUID → Bool) (s : MemoryServer R) : MemoryServerEvent → Prop
  | .move i env => ∃ p, s.procs[i]? = some p ∧ p.Exposed pf users env s.shared
  | _ => False

/-! ## The invariant -/

/-- What a process relies on: the checks it made, the row it committed. -/
def MemoryProc.Ready (pf : Platform) (db : MemoryDb R) : MemoryProc → Prop
  | .create ⟨_, args, .inserting text⟩ => checkCreate pf args = .ok text
  | .create ⟨_, _, .committed id⟩ => db.world.memories.has id = true
  | _ => True

section Moves

variable {pf : Platform} {client : MemoryClient R} {users : UUID → Bool} {env : Env}

/-- No move removes a row. -/
theorem memoryMove_has (p : MemoryProc) (db : MemoryDb R) {id : UUID}
    (h : db.world.memories.has id = true) :
    (p.move pf client users env db).2.world.memories.has id = true := by
  cases p with
  | create p =>
    simp only [MemoryProc.move, CreateProc.move]
    split
    · split
      · exact h
      · split
        · split <;> exact h
        · exact h
    · split <;> exact h
    · split <;> exact h
    · exact h
    · exact Table.has_upsert _ _ h
    · split <;> exact h
    · exact h
  | delete p =>
    simp only [MemoryProc.move, DeleteMemoryProc.move]
    split
    · split
      · exact h
      · split <;> exact h
    · split <;> exact h
    · split
      · exact h
      · split <;> exact h
    · exact (Table.has_put ..).trans h
    · exact h

theorem ready_of_move {p q : MemoryProc} {db : MemoryDb R} (h : q.Ready pf db) :
    q.Ready pf (p.move pf client users env db).2 := by
  unfold MemoryProc.Ready at h ⊢
  split <;> simp only at h
  · exact h
  · exact memoryMove_has p db h
  · trivial

theorem ready_move (p : MemoryProc) (db : MemoryDb R) (h : p.Ready pf db) :
    (p.move pf client users env db).1.Ready pf (p.move pf client users env db).2 := by
  cases p with
  | create p =>
    obtain ⟨userId, args, pc⟩ := p
    cases pc with
    | requested =>
      simp only [MemoryProc.move, CreateProc.move]
      split
      · trivial
      · rename_i text hcheck
        split
        · split <;> trivial
        · exact hcheck
    | inserting text =>
      simp only [MemoryProc.move, CreateProc.move]
      split
      · exact h
      all_goals trivial
    | rereading digest =>
      simp only [MemoryProc.move, CreateProc.move]
      split <;> trivial
    | inserted row => trivial
    | sent row => exact Table.has_iff.2 ⟨row, Table.mem_upsert_self _ _, rfl⟩
    | committed id =>
      simp only [MemoryProc.move, CreateProc.move]
      split <;> trivial
    | done reply => trivial
  | delete p => trivial

/-- The `INSERT` of a row that passes the CHECK constraints raises exactly when it `InsertFails`,
and then no typed error. -/
theorem insert_spec (users : UUID → Bool) (db : MemoryDb R) {row : Memory}
    (hlocated : locationChecks row.locationLat row.locationLng = true) :
    match db.insert pf users row with
    | .raised e => InsertFails pf users db row ∧ typedReply (.error e) = false
    | _ => ¬ InsertFails pf users db row := by
  unfold MemoryDb.insert
  cases hrefused : row.refused pf with
  | some e => exact ⟨Or.inl (by simp [hrefused]), rfl⟩
  | none =>
  dsimp only
  by_cases hwaits : db.insertWaits row = true
  · rw [if_pos hwaits]
    rintro (h | ⟨h, _⟩)
    · exact h hrefused
    · rw [hwaits] at h
      cases h
  rw [if_neg hwaits, insertOnConflictDoNothing_located _ hrefused hlocated]
  have hwaits : db.insertWaits row = false := by simpa using hwaits
  cases hhash : findByHash db.world.memories row.userId row.contentHash with
  | some other => simp [InsertFails, hrefused, hhash]
  | none =>
    simp only [Option.isSome_none, Bool.false_eq_true, if_false]
    cases hinsert : db.world.memories.insert? row with
    | none =>
      have hhas := Table.has_iff.2 (Table.insert?_eq_none.1 hinsert)
      exact ⟨Or.inr ⟨hwaits, hhash, Or.inl hhas⟩, rfl⟩
    | some memories =>
      have hhas := Table.has_eq_false.2 (Table.insert?_eq_some.1 hinsert).1
      cases huser : users row.userId with
      | false => exact ⟨Or.inr ⟨hwaits, hhash, Or.inr huser⟩, rfl⟩
      | true => simp [InsertFails, hrefused, hhas, huser]

/-- **One move**: the reply is typed unless the move runs into the database. -/
theorem move_typed_iff (hz : pf.ZoneInfoDocumented) {p : MemoryProc} {db : MemoryDb R}
    (hready : p.Ready pf db) (htyped : p.typed = true) :
    (p.move pf client users env db).1.typed = true ↔ ¬ p.Exposed pf users env db := by
  cases p with
  | delete p => exact iff_of_true rfl id
  | create p =>
    obtain ⟨userId, args, pc⟩ := p
    cases pc with
    | requested =>
      refine iff_of_true ?_ id
      simp only [MemoryProc.move, CreateProc.move]
      split
      · rename_i e hcheck
        obtain ⟨message, rfl⟩ := checkCreate_error hz hcheck
        rfl
      · split
        · split <;> rfl
        · rfl
    | inserting text =>
      have hlocated : locationChecks (newRow pf env userId args text).locationLat
          (newRow pf env userId args text).locationLng = true := checkCreate_located hready
      have hinsert := @insert_spec R pf users db _ hlocated
      simp only [MemoryProc.move, CreateProc.move, MemoryProc.Exposed]
      generalize db.insert pf users (newRow pf env userId args text) = ended at hinsert ⊢
      cases ended with
      | raised e => exact iff_of_false (by simp [MemoryProc.typed, hinsert.2]) (not_not.2 hinsert.1)
      | waits => exact iff_of_true rfl hinsert
      | conflict => exact iff_of_true rfl hinsert
      | inserted => exact iff_of_true rfl hinsert
    | rereading digest =>
      simp only [MemoryProc.move, CreateProc.move, MemoryProc.Exposed]
      cases findByHash db.world.memories userId digest with
      | none => simp [MemoryProc.typed, typedReply]
      | some existing => simp [MemoryProc.typed, typedReply]
    | inserted row => exact iff_of_true rfl id
    | sent row => exact iff_of_true rfl id
    | committed memoryId =>
      obtain ⟨row, hrow⟩ : ∃ row, db.world.memories.find memoryId = some row := by
        obtain ⟨row, hmem, hid⟩ := Table.has_iff.1 hready
        exact ⟨row, Table.find_eq_some.2 ⟨hmem, hid⟩⟩
      refine iff_of_true ?_ id
      simp only [MemoryProc.move, CreateProc.move, hrow]
      rfl
    | done reply => exact iff_of_true htyped id

end Moves

/-! ## Interleavings -/

section Server

variable {pf : Platform} {client : MemoryClient R} {users : UUID → Bool}

/-- Every process is ready. -/
abbrev AllReady (pf : Platform) (s : MemoryServer R) : Prop :=
  Interleaving.Inv (fun _ => True) (fun _ db p => MemoryProc.Ready pf db p) s

theorem allReady_step {s : MemoryServer R} (h : AllReady pf s) (e : MemoryServerEvent) :
    AllReady pf (memoryServerStep pf client users s e) := by
  refine Interleaving.inv_step h (fun p hp => ?_) fun i env p _ hp => ?_
  · cases e <;> cases hp <;> trivial
  · exact ⟨trivial, ready_move p _ (h.procs i p hp), fun j q _ hq => ready_of_move (h.procs j q hq)⟩

/-- **One event**: all replies stay typed unless it is exposed. -/
theorem typedReplies_step (hz : pf.ZoneInfoDocumented) {s : MemoryServer R} (hready : AllReady pf s)
    (h : TypedReplies s) (e : MemoryServerEvent) :
    TypedReplies (memoryServerStep pf client users s e) ↔ ¬ Exposes pf users s e := by
  cases e with
  | createMemory userId args =>
    refine iff_of_true ?_ id
    exact (Interleaving.forall_procs_arrive s _).2 ⟨h, rfl⟩
  | deleteMemory userId memoryId =>
    refine iff_of_true ?_ id
    exact (Interleaving.forall_procs_arrive s _).2 ⟨h, rfl⟩
  | move i env =>
    refine (Interleaving.forall_procs_move h i env).trans ?_
    simp only [Exposes, not_exists, not_and]
    refine forall₂_congr fun p hp => ?_
    exact move_typed_iff hz (hready.procs i p hp) (h p (List.mem_of_getElem? hp))

/-- User 8 sends a key that is the id of a row of user 7. -/
def keyOfAnother : List MemoryServerEvent :=
  .createMemory 7 (runAlong "ran" (some 5)) :: List.replicate 5 (.move 0 ⟨0, 0, 1⟩) ++
    .createMemory 8 (runAlong "swam" (some 5)) :: List.replicate 2 (.move 1 ⟨0, 0, 2⟩)

/-- A duplicate whose row is deleted between the `INSERT` and the re-read. -/
def deletedBeforeReread : List MemoryServerEvent :=
  .createMemory 7 (runAlong "ran" none) :: List.replicate 5 (.move 0 ⟨0, 0, 1⟩) ++
    .createMemory 7 (runAlong "ran" none) :: List.replicate 2 (.move 1 ⟨0, 0, 2⟩) ++
    .deleteMemory 7 1 :: List.replicate 4 (.move 2 ⟨0, 0, 3⟩) ++ [.move 1 ⟨0, 0, 4⟩]

end Server

end MeJournal
