import MeJournal.Memory.RowHistory
import MeJournal.Memory.LocalWrites

/-!
# Retries of `create_memory` under one idempotency key

A create with `idempotency_id` X is answered by the row with that id, or, when the user has
none, by the live row with the same content hash.  The second row does not carry the key.

* `createMemory_returned` — what a create returns is stored, and the user's.
* `retry_keeps_iff` — one later create under the key, exactly.
* `retries_keep_iff` — every pair of creates of a run.
-/

namespace MeJournal

variable {R : Type}

/-- `ZoneInfo(key)` raises `ZoneInfoNotFoundError` for an unknown key and `ValueError` for a
malformed one, and nothing else. -/
def Platform.ZoneInfoDocumented (pf : Platform) : Prop :=
  ∀ key exc, pf.zoneInfo key = .error exc →
    exc.isinstance ["ZoneInfoNotFoundError", "ValueError"] = true

/-! ## The property -/

/-- The user and the idempotency key of a create. -/
def Request.key : Request → Option (UUID × UUID)
  | .create userId args => args.idempotencyId.map fun id => (userId, id)
  | _ => none

theorem key_eq_some {req : Request} {key : UUID × UUID} :
    req.key = some key ↔
      ∃ userId args, req = .create userId args ∧
        args.idempotencyId = some key.2 ∧ userId = key.1 := by
  cases req with
  | create userId args =>
    simp only [Request.key, Option.map_eq_some_iff, Request.create.injEq]
    constructor
    · rintro ⟨id, hid, rfl⟩
      exact ⟨userId, args, ⟨rfl, rfl⟩, hid, rfl⟩
    · rintro ⟨_, _, ⟨rfl, rfl⟩, hid, rfl⟩
      exact ⟨key.2, hid, rfl⟩
  | update => simp [Request.key]
  | delete => simp [Request.key]
  | sync => simp [Request.key]

/-- The row a request returns. -/
def Reply.row? : Reply → Option Memory
  | .ok row => row
  | .error _ => none

/-- The same row, `MemoryIdempotencyReused` or `MemoryValidationError`. -/
def Reply.keeps (row : Memory) : Reply → Bool
  | .ok (some row') => row'.id = row.id
  | .ok none => false
  | .error (.idempotencyReused _) => true
  | .error (.validation _) => true
  | .error _ => false

def stepReply (pf : Platform) (client : MemoryClient R) (p : World R × MemoryEvent) : Reply :=
  (answer pf client p.2.env p.1 p.2.req).1

/-- The step answers with `row` or raises a typed error, and inserts nothing. -/
def KeepsAnswer (pf : Platform) (client : MemoryClient R) (row : Memory)
    (q : World R × MemoryEvent) : Prop :=
  (stepReply pf client q).keeps row = true ∧
    (memoryStep pf client q.1 q.2).memories.rows.length = q.1.memories.rows.length

/-- What a create under the key of the earlier create `p` has to do at `q`. -/
def RetryKeeps (pf : Platform) (client : MemoryClient R) (p q : World R × MemoryEvent) : Prop :=
  ∀ key ∈ p.2.req.key, q.2.req.key = some key →
    ∀ row ∈ (stepReply pf client p).row?, KeepsAnswer pf client row q

instance (pf : Platform) (client : MemoryClient R) (row : Memory) (q : World R × MemoryEvent) :
    Decidable (KeepsAnswer pf client row q) :=
  inferInstanceAs (Decidable (_ ∧ _))

-- by the two options: keys are too many to enumerate
instance (pf : Platform) (client : MemoryClient R) (p q : World R × MemoryEvent) :
    Decidable (RetryKeeps pf client p q) :=
  haveI (key : UUID × UUID) : Decidable (q.2.req.key = some key →
      ∀ row ∈ (stepReply pf client p).row?, KeepsAnswer pf client row q) :=
    haveI := Option.decidableForallMem (p := fun row => KeepsAnswer pf client row q)
      (stepReply pf client p).row?
    inferInstance
  Option.decidableForallMem p.2.req.key

/-- The create `args` still finds the row: `row` carries the key, or the create does not pass
its checks, or a deleted row of the user carries the key, or none does, `row` is the live row
with the hash of the text, and the texts of the `INSERT` are not refused. -/
def StillFinds (pf : Platform) (memories : MemoryTable) (userId : UUID) (args : CreateArgs)
    (row : Memory) : Prop :=
  args.idempotencyId = some row.id ∨
    ∀ text, checkCreate pf args = .ok text →
      match args.idempotencyId.bind (findOwned memories userId) with
      | some owned => ¬ owned.live
      | none => pf.refused text args.eventTz args.locationLabel = none ∧
          ∃ found, findByHash memories userId (canonicalHash pf text) = some found ∧
            found.id = row.id

/-- The condition on the state before the later create. -/
def RetryFinds (pf : Platform) (client : MemoryClient R) (p q : World R × MemoryEvent) : Prop :=
  ∀ key ∈ p.2.req.key, q.2.req.key = some key → ∀ row ∈ (stepReply pf client p).row?,
    ∀ userId args, q.2.req = .create userId args →
      StillFinds pf q.1.memories userId args row

/-! ## What a create returns -/

theorem checkCreate_error {pf : Platform} (hz : pf.ZoneInfoDocumented) {args : CreateArgs}
    {e : ServiceError} (h : checkCreate pf args = .error e) :
    ∃ message, e = .validation message := by
  have htz : ∀ e, validateTz pf args.eventTz = .error e → ∃ message, e = .validation message := by
    intro e he
    unfold validateTz at he
    split at he
    · cases he
      exact ⟨_, rfl⟩
    split at he
    · cases he
    · rename_i exc hexc
      rw [if_pos (hz _ _ hexc)] at he
      cases he
      exact ⟨_, rfl⟩
  have hloc : ∀ e, validateLocationPair args.locationLat args.locationLng = .error e →
      ∃ message, e = .validation message := by
    intro e he
    unfold validateLocationPair at he
    split at he
    · cases he
      exact ⟨_, rfl⟩
    split at he
    · cases he
      exact ⟨_, rfl⟩
    split at he
    · cases he
      exact ⟨_, rfl⟩
    · cases he
  simp only [checkCreate] at h
  split at h
  · cases h
    exact ⟨_, rfl⟩
  split at h
  · rename_i e' he
    cases h
    exact htz _ he
  split at h
  · rename_i e' he
    cases h
    exact hloc _ he
  · cases h

/-- **What `create_memory` returns is stored**, under the user's id. -/
theorem createMemory_returned {pf : Platform} {client : MemoryClient R} {env : Env}
    {userId : UUID} {args : CreateArgs} {w : World R} {row : Memory}
    (h : (createMemory pf client env userId args w).1 = .ok row) :
    findOwned (createMemory pf client env userId args w).2.memories userId row.id = some row := by
  revert h
  unfold createMemory
  split
  · exact nofun
  rename_i text hcheck
  split
  · rename_i existing hfound
    obtain ⟨id, _, hid⟩ := Option.bind_eq_some_iff.1 hfound
    obtain ⟨hmem, _, huser⟩ := findOwned_eq_some.1 hid
    split
    · exact nofun
    · rintro ⟨⟩
      exact findOwned_eq_some.2 ⟨hmem, rfl, huser⟩
  simp only
  split
  · exact nofun
  · split
    · rename_i existing hexisting
      rintro ⟨⟩
      have hmem := List.mem_of_find?_eq_some hexisting
      have hp := List.find?_some hexisting
      simp only [Bool.and_eq_true, decide_eq_true_eq] at hp
      exact findOwned_eq_some.2 ⟨hmem, rfl, hp.1.1⟩
    · exact nofun
  · rename_i memories hins
    obtain ⟨_, hinsert⟩ := insertOnConflictDoNothing_inserted hins
    rintro ⟨⟩
    refine findOwned_eq_some.2 ⟨?_, rfl, sendToSupermemoryAdd_userId ..⟩
    simp only [Table.insert?_put_rows hinsert (sendToSupermemoryAdd_id ..)]
    exact List.mem_append_right _ (List.mem_singleton_self _)

/-! ## One retry -/

section Retry

variable {pf : Platform} {client : MemoryClient R} {env : Env} {userId : UUID} {args : CreateArgs}
  {w : World R} {text : Text}

/-- A create under a key whose row the user owns. -/
theorem createMemory_owned {owned : Memory} (hcheck : checkCreate pf args = .ok text)
    (howned : args.idempotencyId.bind (findOwned w.memories userId) = some owned) :
    createMemory pf client env userId args w =
      if owned.live then (.ok owned, w) else (.error (.idempotencyReused owned.id), w) := by
  simp only [createMemory, hcheck, howned]
  by_cases hlive : owned.live
  · have hsome : ¬ owned.deletedAt.isSome = true := by simp [hlive]
    rw [if_neg hsome, if_pos hlive]
  · have hsome : owned.deletedAt.isSome = true := Option.isSome_iff_ne_none.2 hlive
    rw [if_pos hsome, if_neg hlive]

/-- A create whose texts are refused. -/
theorem createMemory_refused {e : DbError} (hcheck : checkCreate pf args = .ok text)
    (howned : args.idempotencyId.bind (findOwned w.memories userId) = none)
    (hrefused : pf.refused text args.eventTz args.locationLabel = some e) :
    createMemory pf client env userId args w = (.error (.raised e.exc), w) := by
  have hrow : (newRow pf env userId args text).refused pf = some e := hrefused
  simp only [createMemory, hcheck, howned, insertOnConflictDoNothing, hrow]

/-- The `INSERT` of a create that passes its checks and is not refused. -/
theorem createMemory_insert (env : Env) (userId : UUID) (w : World R)
    (hcheck : checkCreate pf args = .ok text)
    (hsent : pf.refused text args.eventTz args.locationLabel = none) :
    insertOnConflictDoNothing pf w.memories (newRow pf env userId args text) =
      if (findByHash w.memories userId (canonicalHash pf text)).isSome then .ok none
      else match w.memories.insert? (newRow pf env userId args text) with
        | some memories => .ok (some memories)
        | none => .error (.integrity "memories_pkey") := by
  have hrow : (newRow pf env userId args text).refused pf = none := hsent
  exact insertOnConflictDoNothing_located w.memories hrow (checkCreate_located hcheck)

/-- A create whose text the user has live. -/
theorem createMemory_duplicate {found : Memory} (hcheck : checkCreate pf args = .ok text)
    (howned : args.idempotencyId.bind (findOwned w.memories userId) = none)
    (hsent : pf.refused text args.eventTz args.locationLabel = none)
    (hfound : findByHash w.memories userId (canonicalHash pf text) = some found) :
    createMemory pf client env userId args w = (.ok found, w) := by
  have hinsert := createMemory_insert env userId w hcheck hsent
  have hhash : findByHash w.memories userId (newRow pf env userId args text).contentHash =
      some found := hfound
  simp only [hfound, Option.isSome_some, if_true] at hinsert
  simp only [createMemory, hcheck, howned, hinsert, hhash]

/-- A create that has nothing to answer with inserts a row, or raises an `IntegrityError`. -/
theorem createMemory_inserts (hcheck : checkCreate pf args = .ok text)
    (howned : args.idempotencyId.bind (findOwned w.memories userId) = none)
    (hsent : pf.refused text args.eventTz args.locationLabel = none)
    (hfound : findByHash w.memories userId (canonicalHash pf text) = none) :
    (createMemory pf client env userId args w).1 = .error (.integrity "memories_pkey") ∨
      (createMemory pf client env userId args w).2.memories.rows.length =
        w.memories.rows.length + 1 := by
  have hinsert := createMemory_insert env userId w hcheck hsent
  simp only [hfound, Option.isSome_none, Bool.false_eq_true, if_false] at hinsert
  cases hins : w.memories.insert? (newRow pf env userId args text) with
  | none =>
    simp only [hins] at hinsert
    exact Or.inl (by simp only [createMemory, hcheck, howned, hinsert])
  | some memories =>
    simp only [hins] at hinsert
    refine Or.inr ?_
    simp only [createMemory, hcheck, howned, hinsert]
    rw [Table.insert?_put_rows hins (by simp), List.length_append, List.length_singleton]

/-- A key whose row the user owns is found. -/
theorem findOwned_ne_none {row : Memory}
    (hkept : ∃ m ∈ w.memories.rows, m.id = row.id ∧ m.userId = userId)
    (hkey : args.idempotencyId = some row.id) :
    args.idempotencyId.bind (findOwned w.memories userId) ≠ none := by
  obtain ⟨m, hm, hid, huser⟩ := hkept
  rw [hkey, Option.bind_some, findOwned_eq_some.2 ⟨hm, hid, huser⟩]
  exact Option.some_ne_none m

/-- **One retry** answers with `row`, or raises a typed error and inserts nothing, exactly when
it still finds `row`. -/
theorem retry_keeps_iff (hz : pf.ZoneInfoDocumented) {row : Memory}
    (hkept : ∃ m ∈ w.memories.rows, m.id = row.id ∧ m.userId = userId) :
    ((answer pf client env w (.create userId args)).1.keeps row = true ∧
      (handle pf client env w (.create userId args)).memories.rows.length =
        w.memories.rows.length) ↔
      StillFinds pf w.memories userId args row := by
  simp only [answer, handle]
  cases hcheck : checkCreate pf args with
  | error e =>
    obtain ⟨message, rfl⟩ := checkCreate_error hz hcheck
    have hcreate : createMemory pf client env userId args w =
        (.error (.validation message), w) := by simp only [createMemory, hcheck]
    refine iff_of_true ?_ (Or.inr fun text htext => ?_)
    · rw [hcreate]
      exact ⟨rfl, rfl⟩
    · rw [hcheck] at htext
      cases htext
  | ok text =>
    have hcondition : StillFinds pf w.memories userId args row ↔
        args.idempotencyId = some row.id ∨
          match args.idempotencyId.bind (findOwned w.memories userId) with
          | some owned => ¬ owned.live
          | none => pf.refused text args.eventTz args.locationLabel = none ∧
              ∃ found, findByHash w.memories userId (canonicalHash pf text) = some found ∧
                found.id = row.id := by
      simp only [StillFinds, hcheck, Except.ok.injEq, forall_eq']
    rw [hcondition]
    cases howned : args.idempotencyId.bind (findOwned w.memories userId) with
    | some owned =>
      obtain ⟨key, hkey, hfind⟩ := Option.bind_eq_some_iff.1 howned
      obtain ⟨_, hid, _⟩ := findOwned_eq_some.1 hfind
      rw [createMemory_owned hcheck howned]
      by_cases hlive : owned.live
      · rw [if_pos hlive]
        simp [hlive, hkey, ← hid, Reply.keeps, Except.map]
      · rw [if_neg hlive]
        simp [hlive, Reply.keeps, Except.map]
    | none =>
      have hnot : args.idempotencyId ≠ some row.id :=
        fun hkey => findOwned_ne_none hkept hkey howned
      cases hsent : pf.refused text args.eventTz args.locationLabel with
      | some e =>
        rw [createMemory_refused hcheck howned hsent]
        simp [hnot, Reply.keeps, Except.map]
      | none =>
      cases hfound : findByHash w.memories userId (canonicalHash pf text) with
      | some found =>
        rw [createMemory_duplicate hcheck howned hsent hfound]
        simp [hnot, Reply.keeps, Except.map]
      | none =>
        refine iff_of_false ?_ (by simp [hnot])
        rintro ⟨hkeeps, hlength⟩
        have hcreate : (createMemory pf client env userId args w).1 =
              .error (.integrity "memories_pkey") ∨
            (createMemory pf client env userId args w).2.memories.rows.length =
              w.memories.rows.length + 1 := createMemory_inserts hcheck howned hsent hfound
        rcases hcreate with hraised | hinserted
        · rw [hraised] at hkeeps
          cases hkeeps
        · omega

end Retry

/-! ## Runs -/

/-- The steps of a run: what an earlier step leaves is kept until a later one starts. -/
theorem kept_steps (pf : Platform) (client : MemoryClient R) (w : World R)
    (es : List MemoryEvent) :
    (Runs.steps (memoryStep pf client) w es).Pairwise fun p q =>
      Kept (memoryStep pf client p.1 p.2).memories q.1.memories := by
  have hstep : ∀ (w : World R) (e : MemoryEvent),
      Kept w.memories (memoryStep pf client w e).memories :=
    fun w e => becomes_handle pf client e.env w e.req
  have htrans : ∀ w₁ w₂ w₃ : World R, Kept w₁.memories w₂.memories →
      Kept w₂.memories w₃.memories → Kept w₁.memories w₃.memories :=
    fun _ _ _ h h' => h.trans h'
  exact Runs.pairwise_steps hstep (fun w => Kept.refl w.memories) htrans w es

/-- The row of an earlier create is the user's at every later step. -/
theorem returned_kept {pf : Platform} {client : MemoryClient R} {p q : World R × MemoryEvent}
    (hkept : Kept (memoryStep pf client p.1 p.2).memories q.1.memories) {userId : UUID}
    {args : CreateArgs} (hreq : p.2.req = .create userId args) {row : Memory}
    (hrow : row ∈ (stepReply pf client p).row?) :
    ∃ m ∈ q.1.memories.rows, m.id = row.id ∧ m.userId = userId := by
  obtain ⟨w, env, req⟩ := p
  obtain rfl : req = .create userId args := hreq
  have hreturned : (createMemory pf client env userId args w).1 = .ok row := by
    simp only [stepReply, answer] at hrow
    cases hreply : (createMemory pf client env userId args w).1 with
    | error e =>
      rw [hreply] at hrow
      cases hrow
    | ok row' =>
      rw [hreply] at hrow
      cases hrow
      rfl
  obtain ⟨hmem, _, huser⟩ := findOwned_eq_some.1 (createMemory_returned hreturned)
  obtain ⟨m, hm, hbecomes⟩ := hkept row hmem
  exact ⟨m, hm, hbecomes.id, hbecomes.userId.trans huser⟩

/-- **Every create under a key keeps the first answer, exactly when** it still finds the row of
every earlier create under the key. -/
theorem retries_keep_iff {pf : Platform} (hz : pf.ZoneInfoDocumented) (client : MemoryClient R)
    (w : World R) (es : List MemoryEvent) :
    (Runs.steps (memoryStep pf client) w es).Pairwise (RetryKeeps pf client) ↔
      (Runs.steps (memoryStep pf client) w es).Pairwise (RetryFinds pf client) := by
  have hpair : ∀ p q : World R × MemoryEvent,
      Kept (memoryStep pf client p.1 p.2).memories q.1.memories →
        (RetryKeeps pf client p q ↔ RetryFinds pf client p q) := by
    rintro p ⟨w', env, req⟩ hkept
    refine forall₂_congr fun key hp => forall_congr' fun hq => forall₂_congr fun row hrow => ?_
    obtain ⟨userId, args, hreq, hsame⟩ := key_eq_some.1 hp
    obtain ⟨userId', args', hreq', hsame'⟩ := key_eq_some.1 hq
    obtain rfl : req = .create userId' args' := hreq'
    obtain rfl : userId = userId' := hsame.2.trans hsame'.2.symm
    have hiff : KeepsAnswer pf client row (w', ⟨env, .create userId args'⟩) ↔
        StillFinds pf w'.memories userId args' row :=
      retry_keeps_iff hz (returned_kept hkept hreq hrow)
    constructor
    · rintro hkeeps _ _ ⟨⟩
      exact hiff.1 hkeeps
    · intro hfinds
      exact hiff.2 (hfinds userId args' rfl)
  have hkept := kept_steps pf client w es
  constructor
  · intro h
    exact (hkept.and h).imp fun {p q} hpq => (hpair p q hpq.1).1 hpq.2
  · intro h
    exact (hkept.and h).imp fun {p q} hpq => (hpair p q hpq.1).2 hpq.2

def runAlong (text : String) (key : Option UUID) : CreateArgs :=
  ⟨text.toList, sampleDate, "UTC".toList, none, none, none, none, key⟩

/-- A create answered by an older row with the same text, an edit of that row, and the retry:
it inserts a second row. -/
def editedBetween : List MemoryEvent :=
  [⟨⟨0, 0, 1⟩, .create 7 (runAlong "ran" none)⟩, ⟨⟨0, 0, 2⟩, .create 7 (runAlong "ran" (some 5))⟩,
    ⟨⟨0, 0, 3⟩, .update 7 1
      ⟨.set "swam".toList, .unset, .unset, .unset, .unset, .unset, .unset⟩⟩,
    ⟨⟨0, 0, 4⟩, .create 7 (runAlong "ran" (some 5))⟩]

theorem utcPlatform_zoneInfoDocumented : utcPlatform.ZoneInfoDocumented := by
  intro key exc h
  simp only [utcPlatform] at h
  split at h
  · cases h
  · cases h
    rfl

theorem retries_keep_iff_edited :
    (Runs.steps (memoryStep utcPlatform offline) (initialWorld ()) editedBetween).Pairwise
        (RetryKeeps utcPlatform offline) ↔
      (Runs.steps (memoryStep utcPlatform offline) (initialWorld ()) editedBetween).Pairwise
        (RetryFinds utcPlatform offline) :=
  retries_keep_iff utcPlatform_zoneInfoDocumented offline (initialWorld ()) editedBetween

theorem retry_after_edit_inserts :
    ¬ (Runs.steps (memoryStep utcPlatform offline) (initialWorld ()) editedBetween).Pairwise
        (RetryKeeps utcPlatform offline) := by
  decide +kernel

end MeJournal
