import MeJournal.Memory.ConcurrentCreates

/-!
# Creates and deletes do not block each other for good

A create waits for a transaction that holds its content hash or its id, a delete for one that
holds its row.  Those transactions belong to requests that never wait.

* `Owned` — every uncommitted row belongs to a request that is about to commit it.
* `exists_not_waiting` — while a request is unfinished, one of them can move.
* `requests_can_finish` — from every reachable state moves alone finish all requests.
-/

namespace MeJournal

variable {R : Type}

/-- The row a create has inserted and not committed. -/
def MemoryProc.insertedId : MemoryProc → Option UUID
  | .create ⟨_, _, .inserted row⟩ => some row.id
  | .create ⟨_, _, .sent row⟩ => some row.id
  | _ => none

/-- The row a delete has updated and not committed. -/
def MemoryProc.updatedId : MemoryProc → Option UUID
  | .delete ⟨_, _, .updated row⟩ => some row.id
  | _ => none

/-- Returned or raised. -/
def MemoryProc.ended : MemoryProc → Bool
  | .create ⟨_, _, .done _⟩ => true
  | .delete ⟨_, _, .done⟩ => true
  | _ => false

/-- How many moves a create has left at most. -/
def CreatePc.rank : CreatePc → Nat
  | .requested => 5
  | .inserting _ => 4
  | .inserted _ => 3
  | .sent _ => 2
  | .rereading _ => 1
  | .committed _ => 1
  | .done _ => 0

/-- How many moves a delete has left at most. -/
def DeleteMemoryPc.rank : DeleteMemoryPc → Nat
  | .requested => 4
  | .selected _ => 3
  | .called .. => 2
  | .updated _ => 1
  | .done => 0

def MemoryProc.rank : MemoryProc → Nat
  | .create p => p.pc.rank
  | .delete p => p.pc.rank

/-- The next statement waits for another transaction. -/
def MemoryProc.Waits (pf : Platform) (env : Env) (db : MemoryDb R) : MemoryProc → Prop
  | .create ⟨userId, args, .inserting text⟩ =>
    db.insertWaits (newRow pf env userId args text) = true
  | .delete ⟨_, _, .called loaded _⟩ => db.locked loaded.id = true
  | _ => False

/-- What a move does to the uncommitted rows, with the row that the request holds before and
after it. -/
inductive RowsMove (rows : List Memory) : List Memory → Option UUID → Option UUID → Prop
  | kept (held : Option UUID) : RowsMove rows rows held held
  | written (row : Memory) : RowsMove rows (row :: rows) none (some row.id)
  | committed (id : UUID) :
    RowsMove rows (rows.filter fun row => row.id ≠ id) (some id) none

/-- Every uncommitted row belongs to a request. -/
structure Owned (s : MemoryServer R) : Prop where
  inserted : ∀ row ∈ s.shared.inserted, ∃ p ∈ s.procs, p.insertedId = some row.id
  updated : ∀ row ∈ s.shared.updated, ∃ p ∈ s.procs, p.updatedId = some row.id

section Moves

variable {pf : Platform} {client : MemoryClient R} {users : UUID → Bool} {env : Env}

/-- An `INSERT` that waits meets an uncommitted row. -/
theorem insert_waits {db : MemoryDb R} {row : Memory} (h : db.insert pf users row = .waits) :
    db.insertWaits row = true := by
  unfold MemoryDb.insert at h
  split at h
  · cases h
  split at h
  · assumption
  split at h
  · cases h
  · cases h
  · split at h <;> cases h

/-- A move that does not wait comes closer to the end. -/
theorem rank_move_lt {p : MemoryProc} {db : MemoryDb R} (hwaits : ¬ p.Waits pf env db)
    (hended : p.ended = false) : (p.move pf client users env db).1.rank < p.rank := by
  cases p with
  | create p =>
    obtain ⟨userId, args, pc⟩ := p
    simp only [MemoryProc.move, MemoryProc.rank]
    cases pc with
    | requested =>
      simp only [CreateProc.move]
      split
      · simp [CreatePc.rank]
      · split
        · split <;> simp [CreatePc.rank]
        · simp [CreatePc.rank]
    | inserting text =>
      simp only [CreateProc.move]
      split
      · rename_i hinsert
        exact absurd (insert_waits hinsert) hwaits
      all_goals simp [CreatePc.rank]
    | rereading digest =>
      simp only [CreateProc.move]
      split <;> simp [CreatePc.rank]
    | inserted row => simp [CreateProc.move, CreatePc.rank]
    | sent row => simp [CreateProc.move, CreatePc.rank]
    | committed memoryId =>
      simp only [CreateProc.move]
      split <;> simp [CreatePc.rank]
    | done reply => cases hended
  | delete p =>
    obtain ⟨userId, memoryId, pc⟩ := p
    simp only [MemoryProc.move, MemoryProc.rank]
    cases pc with
    | requested =>
      simp only [DeleteMemoryProc.move]
      split
      · simp [DeleteMemoryPc.rank]
      · split <;> simp [DeleteMemoryPc.rank]
    | selected loaded =>
      simp only [DeleteMemoryProc.move]
      split <;> simp [DeleteMemoryPc.rank]
    | called loaded current =>
      simp only [DeleteMemoryProc.move]
      split
      · rename_i hlocked
        exact absurd hlocked hwaits
      · split <;> simp [DeleteMemoryPc.rank]
    | updated row => simp [DeleteMemoryProc.move, DeleteMemoryPc.rank]
    | done => cases hended

/-- What a move does to the uncommitted inserts. -/
theorem move_inserted (p : MemoryProc) (db : MemoryDb R) :
    RowsMove db.inserted (p.move pf client users env db).2.inserted p.insertedId
      (p.move pf client users env db).1.insertedId := by
  cases p with
  | create p =>
    obtain ⟨userId, args, pc⟩ := p
    simp only [MemoryProc.move]
    cases pc with
    | requested =>
      simp only [CreateProc.move]
      split
      · exact .kept _
      · split
        · split <;> exact .kept _
        · exact .kept _
    | inserting text =>
      simp only [CreateProc.move]
      split
      · exact .kept _
      · exact .kept _
      · exact .kept _
      · exact .written _
    | rereading digest =>
      simp only [CreateProc.move]
      split <;> exact .kept _
    | inserted row =>
      have hsame : (MemoryProc.create
          (CreateProc.move pf client users env ⟨userId, args, .inserted row⟩ db).1).insertedId =
          some row.id := congrArg some (sendToSupermemoryAdd_id client env row db.world)
      rw [hsame]
      exact .kept _
    | sent row => exact .committed _
    | committed memoryId =>
      simp only [CreateProc.move]
      split <;> exact .kept _
    | done reply => exact .kept _
  | delete p =>
    have hsame : (p.move client env db).2.inserted = db.inserted := by
      simp only [DeleteMemoryProc.move]
      split
      · split
        · rfl
        · split <;> rfl
      · split <;> rfl
      · split
        · rfl
        · split <;> rfl
      · rfl
      · rfl
    simp only [MemoryProc.move, hsame]
    exact .kept _

/-- What a move does to the uncommitted updates. -/
theorem move_updated (p : MemoryProc) (db : MemoryDb R) :
    RowsMove db.updated (p.move pf client users env db).2.updated p.updatedId
      (p.move pf client users env db).1.updatedId := by
  cases p with
  | create p =>
    have hsame : (p.move pf client users env db).2.updated = db.updated := by
      simp only [CreateProc.move]
      split
      · split
        · rfl
        · split
          · split <;> rfl
          · rfl
      · split <;> rfl
      · split <;> rfl
      · rfl
      · rfl
      · split <;> rfl
      · rfl
    simp only [MemoryProc.move, hsame]
    exact .kept _
  | delete p =>
    obtain ⟨userId, memoryId, pc⟩ := p
    simp only [MemoryProc.move]
    cases pc with
    | requested =>
      simp only [DeleteMemoryProc.move]
      split
      · exact .kept _
      · split <;> exact .kept _
    | selected loaded =>
      simp only [DeleteMemoryProc.move]
      split <;> exact .kept _
    | called loaded current =>
      simp only [DeleteMemoryProc.move]
      split
      · exact .kept _
      · split
        · exact .kept _
        · exact .written _
    | updated row => exact .committed _
    | done => exact .kept _

end Moves

/-! ## Owners -/

/-- Owned rows stay owned through a move that keeps them, adds its own, or commits its own. -/
theorem owned_of_move {move : Env → MemoryProc → MemoryDb R → MemoryProc × MemoryDb R}
    {s : MemoryServer R} {i : Nat} {p : MemoryProc} (hp : s.procs[i]? = some p) (env : Env)
    {held : MemoryProc → Option UUID} {rows rows' : List Memory}
    (h : ∀ row ∈ rows, ∃ q ∈ s.procs, held q = some row.id)
    (hmove : RowsMove rows rows' (held p) (held (move env p s.shared).1)) :
    ∀ row ∈ rows', ∃ q ∈ (Interleaving.step move s (.move i env)).procs, held q = some row.id := by
  have hmoved : (move env p s.shared).1 ∈ (Interleaving.step move s (.move i env)).procs :=
    Interleaving.moved_mem hp env
  -- the owner of another's row is still there
  have hkept : ∀ row ∈ rows, held p ≠ some row.id →
      ∃ q ∈ (Interleaving.step move s (.move i env)).procs, held q = some row.id := by
    intro row hrow hne
    obtain ⟨q, hq, hid⟩ := h row hrow
    exact ⟨q, Interleaving.mem_of_ne hp env hq fun hqp => hne (hqp ▸ hid), hid⟩
  intro row hrow
  generalize hbefore : held p = before at hmove hkept
  generalize hafter : held (move env p s.shared).1 = after at hmove
  cases hmove with
  | kept =>
    by_cases hown : before = some row.id
    · exact ⟨_, hmoved, hafter.trans hown⟩
    · exact hkept row hrow hown
  | written new =>
    rcases List.mem_cons.1 hrow with rfl | hrow
    · exact ⟨_, hmoved, hafter⟩
    · exact hkept row hrow nofun
  | committed id =>
    obtain ⟨hrow, hne⟩ := List.mem_filter.1 hrow
    refine hkept row hrow fun heq => ?_
    cases heq
    simp at hne

theorem owned_step {pf : Platform} {client : MemoryClient R} {users : UUID → Bool}
    {s : MemoryServer R} (h : Owned s) (e : MemoryServerEvent) :
    Owned (memoryServerStep pf client users s e) := by
  have harrive : ∀ p : MemoryProc, Owned (Interleaving.step (MemoryProc.move pf client users) s
      (.arrive p)) := by
    intro p
    constructor
    · intro row hrow
      obtain ⟨q, hq, hid⟩ := h.inserted row hrow
      exact ⟨q, List.mem_append_left _ hq, hid⟩
    · intro row hrow
      obtain ⟨q, hq, hid⟩ := h.updated row hrow
      exact ⟨q, List.mem_append_left _ hq, hid⟩
  cases e with
  | createMemory userId args => exact harrive _
  | deleteMemory userId memoryId => exact harrive _
  | move i env =>
    simp only [memoryServerStep, MemoryServerEvent.toEvent]
    cases hp : s.procs[i]? with
    | none =>
      rw [Interleaving.step_move_none hp]
      exact h
    | some p =>
      have hshared : (Interleaving.step (MemoryProc.move pf client users) s (.move i env)).shared =
          (p.move pf client users env s.shared).2 := by rw [Interleaving.step_move hp]
      constructor
      · rw [hshared]
        exact owned_of_move hp env h.inserted (move_inserted p s.shared)
      · rw [hshared]
        exact owned_of_move hp env h.updated (move_updated p s.shared)

/-! ## Progress -/

/-- Who waits, waits for an uncommitted row. -/
theorem waits_uncommitted {pf : Platform} {env : Env} {db : MemoryDb R} {p : MemoryProc}
    (h : p.Waits pf env db) : (∃ row, row ∈ db.inserted) ∨ ∃ row, row ∈ db.updated := by
  have hlocked : ∀ id, db.locked id = true → ∃ row, row ∈ db.updated := by
    intro id hid
    obtain ⟨row, hrow, _⟩ := List.any_eq_true.1 hid
    exact ⟨row, hrow⟩
  unfold MemoryProc.Waits at h
  split at h
  · simp only [MemoryDb.insertWaits, Bool.or_eq_true] at h
    rcases h with h | h
    · obtain ⟨row, hrow, _⟩ := List.any_eq_true.1 h
      exact Or.inl ⟨row, hrow⟩
    split at h
    · exact Or.inr (hlocked _ h)
    rcases Bool.or_eq_true_iff.1 h with h | h
    · obtain ⟨row, hrow, _⟩ := List.any_eq_true.1 h
      exact Or.inl ⟨row, hrow⟩
    · exact Or.inr (hlocked _ h)
  · exact Or.inr (hlocked _ h)
  · exact h.elim

/-- A request with an uncommitted row does not wait. -/
theorem not_waits_of_uncommitted {pf : Platform} {env : Env} {db : MemoryDb R} {p : MemoryProc}
    {id : UUID} (h : p.insertedId = some id ∨ p.updatedId = some id) :
    p.ended = false ∧ ¬ p.Waits pf env db := by
  rcases p with ⟨_, _, pc⟩ | ⟨_, _, pc⟩ <;> cases pc <;>
    simp_all [MemoryProc.insertedId, MemoryProc.updatedId, MemoryProc.ended, MemoryProc.Waits]

/-- **While a request is unfinished, one of them can move.** -/
theorem exists_not_waiting (pf : Platform) (env : Env) {s : MemoryServer R} (h : Owned s)
    (hopen : ∃ p ∈ s.procs, p.ended = false) :
    ∃ p ∈ s.procs, p.ended = false ∧ ¬ p.Waits pf env s.shared := by
  obtain ⟨p, hp, hended⟩ := hopen
  by_cases hwaits : p.Waits pf env s.shared
  · rcases waits_uncommitted hwaits with ⟨row, hrow⟩ | ⟨row, hrow⟩
    · obtain ⟨q, hq, hid⟩ := h.inserted row hrow
      exact ⟨q, hq, not_waits_of_uncommitted (Or.inl hid)⟩
    · obtain ⟨q, hq, hid⟩ := h.updated row hrow
      exact ⟨q, hq, not_waits_of_uncommitted (Or.inr hid)⟩
  · exact ⟨p, hp, hended, hwaits⟩

/-- **From every reachable state moves alone finish all requests.** -/
theorem requests_can_finish (pf : Platform) (client : MemoryClient R) (users : UUID → Bool)
    (w : World R) (es : List MemoryServerEvent) (env : Env) :
    ∃ moves : List MemoryServerEvent, (∀ e ∈ moves, ∃ i, e = .move i env) ∧
      ∀ p ∈ (Runs.run (memoryServerStep pf client users)
        (Runs.run (memoryServerStep pf client users) (memoryServerStart w) es) moves).procs,
        p.ended = true := by
  have hstart : Owned (memoryServerStart w) :=
    ⟨by simp [memoryServerStart, MemoryDb.idle], by simp [memoryServerStart, MemoryDb.idle]⟩
  have hreached : Owned (Runs.run (memoryServerStep pf client users) (memoryServerStart w) es) :=
    Runs.inv_run (I := Owned) (fun s e h => owned_step h e) hstart es
  refine Runs.exists_run (I := Owned) (D := fun s => ∀ p ∈ s.procs, p.ended = true)
    (fun s => (s.procs.map MemoryProc.rank).sum) ?_ hreached
  intro s h hopen
  obtain ⟨p, hp, hended, hwaits⟩ := exists_not_waiting pf env h (by simpa using hopen)
  obtain ⟨i, hi⟩ := List.mem_iff_getElem?.1 hp
  refine ⟨.move i env, ⟨i, rfl⟩, owned_step h _, ?_⟩
  have hsum : ((Interleaving.step (MemoryProc.move pf client users) s (.move i env)).procs.map
      MemoryProc.rank).sum + p.rank = (s.procs.map MemoryProc.rank).sum +
        (p.move pf client users env s.shared).1.rank := Interleaving.sum_step_move hi env _
  have hlt : (p.move pf client users env s.shared).1.rank < p.rank := rank_move_lt hwaits hended
  simp only [memoryServerStep, MemoryServerEvent.toEvent]
  omega

end MeJournal
