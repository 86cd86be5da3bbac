import MeJournal.Chat.StreamTurn
import MeJournal.Memory.Row

/-!
# Sessions, messages and the per-turn writes

`app/models/session.py`, `app/models/message.py`, `app/schemas/chat.py` and the functions of
`app/services/sessions.py` that a chat turn and `delete_session` use.  `Messages` carries the
partial unique index `ux_messages_parent`; an insert that would break it, the primary key or a
foreign key is refused.  Rows of `sessions` and `messages` are never removed, only soft-deleted.
Values that the driver or the database refuses (a NUL character in a text, an infinity or NaN in
`events`) are not modelled: such an insert raises and stores nothing.

* `Messages.insert_eq_some` — when an insert succeeds, and what it adds.
* `recordUserMessage_cases`, `recordAssistantMessage_eq_some` — what the two writes do.
* `findAssistant_eq_some` — the cached reply is the live row with that parent.
-/

namespace MeJournal

variable {M J : Type}

/-! ## Rows -/

inductive Role where
  | user
  | assistant
  deriving DecidableEq

/-- `Session`. -/
structure Session where
  id : UUID
  userId : UUID
  title : Option Text
  lastMessageAt : Option Time
  deletedAt : Option Time
  deriving DecidableEq

/-- `Message`. -/
structure Message (J : Type) where
  id : UUID
  sessionId : UUID
  userId : UUID
  role : Role
  content : Text
  events : Option (List (Event J))
  parentMessageId : Option UUID
  clientTz : Option Text
  locationLat : Option PyFloat
  locationLng : Option PyFloat
  createdAt : Time
  deletedAt : Option Time
  deriving DecidableEq

abbrev Session.live (s : Session) : Prop := s.deletedAt = none

abbrev Message.live (m : Message J) : Prop := m.deletedAt = none

/-- `ux_messages_parent` indexes the row under `parent`. -/
def Message.repliesTo (m : Message J) (parent : UUID) : Prop :=
  m.parentMessageId = some parent ∧ m.live

instance (m : Message J) (parent : UUID) : Decidable (m.repliesTo parent) :=
  inferInstanceAs (Decidable (_ ∧ _))

/-! ## Tables -/

/-- `messages`, with its primary key and `ux_messages_parent`. -/
structure Messages (J : Type) where
  table : Table (Message.id : Message J → UUID)
  uxParent : ∀ parent, ∀ m ∈ table.rows, ∀ n ∈ table.rows,
    m.repliesTo parent → n.repliesTo parent → m = n

namespace Messages

def rows (t : Messages J) : List (Message J) := t.table.rows

def empty : Messages J := ⟨Table.empty, by simp⟩

@[simp] theorem empty_rows : (empty : Messages J).rows = [] := rfl

theorem ext {t u : Messages J} (h : t.rows = u.rows) : t = u := by
  obtain ⟨t, _⟩ := t
  obtain ⟨u, _⟩ := u
  have htu : t = u := Table.ext h
  subst htu
  rfl

/-- The two rows cannot both be in `ux_messages_parent`. -/
def clash (m n : Message J) : Prop := ∃ parent, m.repliesTo parent ∧ n.repliesTo parent

theorem clash_iff {m n : Message J} :
    clash m n ↔ m.live ∧ n.live ∧ m.parentMessageId.isSome ∧
      m.parentMessageId = n.parentMessageId := by
  constructor
  · rintro ⟨parent, ⟨hm, hml⟩, hn, hnl⟩
    exact ⟨hml, hnl, by simp [hm], hm.trans hn.symm⟩
  · rintro ⟨hml, hnl, hsome, heq⟩
    obtain ⟨parent, hm⟩ := Option.isSome_iff_exists.1 hsome
    exact ⟨parent, ⟨hm, hml⟩, heq ▸ hm, hnl⟩

instance (m n : Message J) : Decidable (clash m n) := decidable_of_iff _ clash_iff.symm

/-- `INSERT`; `none` when the parent row is absent, the parent has a live reply already, or
the id is taken. -/
def insert (t : Messages J) (m : Message J) : Option (Messages J) :=
  if hclash : ∀ n ∈ t.rows, ¬ clash m n then
    if m.parentMessageId.all t.table.has then
      match hins : t.table.insert? m with
      | none => none
      | some table => some ⟨table, by
          rw [(Table.insert?_eq_some.1 hins).2]
          intro parent a ha b hb hap hbp
          rcases List.mem_append.1 ha with ha | ha <;> rcases List.mem_append.1 hb with hb | hb
          · exact t.uxParent parent a ha b hb hap hbp
          · cases List.mem_singleton.1 hb
            exact absurd ⟨parent, hbp, hap⟩ (hclash a ha)
          · cases List.mem_singleton.1 ha
            exact absurd ⟨parent, hap, hbp⟩ (hclash b hb)
          · rw [List.mem_singleton.1 ha, List.mem_singleton.1 hb]⟩
    else none
  else none

theorem all_has_iff {t : Messages J} {m : Message J} :
    m.parentMessageId.all t.table.has = true ↔
      ∀ parent, m.parentMessageId = some parent → ∃ n ∈ t.rows, n.id = parent := by
  cases m.parentMessageId with
  | none => simp
  | some parent => simp [Table.has_iff, rows]

/-- An insert that breaks no constraint succeeds. -/
theorem insert_of_fits {t : Messages J} {m : Message J} (hclash : ∀ n ∈ t.rows, ¬ clash m n)
    (hparent : ∀ parent, m.parentMessageId = some parent → ∃ n ∈ t.rows, n.id = parent)
    (hfresh : ∀ n ∈ t.rows, n.id ≠ m.id) : ∃ t', t.insert m = some t' := by
  obtain ⟨table, htable⟩ := Table.insert?_of_fresh hfresh
  unfold insert
  rw [dif_pos hclash, if_pos (all_has_iff.2 hparent)]
  split
  · rename_i hnone
    cases htable.symm.trans hnone
  · exact ⟨_, rfl⟩

/-- **When an insert succeeds**, and what it adds. -/
theorem insert_eq_some {t t' : Messages J} {m : Message J} :
    t.insert m = some t' ↔ (∀ n ∈ t.rows, ¬ clash m n) ∧
      (∀ parent, m.parentMessageId = some parent → ∃ n ∈ t.rows, n.id = parent) ∧
      (∀ n ∈ t.rows, n.id ≠ m.id) ∧ t'.rows = t.rows ++ [m] := by
  unfold insert
  split
  · rename_i hclash
    split
    · rename_i hparent
      have hparent := all_has_iff.1 hparent
      split
      · rename_i hins
        obtain ⟨n, hn, hid⟩ := Table.insert?_eq_none.1 hins
        exact iff_of_false nofun fun h => h.2.2.1 n hn hid
      · rename_i table hins
        obtain ⟨hfresh, hrows⟩ := Table.insert?_eq_some.1 hins
        constructor
        · intro h
          cases h
          exact ⟨hclash, hparent, hfresh, hrows⟩
        · rintro ⟨_, _, _, h⟩
          exact congrArg some (ext (hrows.trans h.symm))
    · rename_i hparent
      exact iff_of_false nofun fun h => hparent (all_has_iff.2 h.2.1)
  · rename_i hclash
    exact iff_of_false nofun fun h => hclash h.1

/-- `deleted_at` set, unless it was. -/
def markDeleted (now : Time) (m : Message J) : Message J :=
  { m with deletedAt := m.deletedAt.orElse fun _ => some now }

theorem markDeleted_dead (now : Time) (m : Message J) : ¬ (markDeleted now m).live := by
  cases h : m.deletedAt <;> simp [markDeleted, h]

/-- `UPDATE messages SET deleted_at = now` for the live rows with an id in `ids`. -/
def softDelete (t : Messages J) (ids : List UUID) (now : Time) : Messages J where
  table := t.table.mapRows (fun m => if m.id ∈ ids then markDeleted now m else m)
    (fun m => by split <;> rfl)
  uxParent := by
    have hkept : ∀ (m : Message J) parent,
        (if m.id ∈ ids then markDeleted now m else m).repliesTo parent →
          (if m.id ∈ ids then markDeleted now m else m) = m := by
      intro m parent h
      by_cases hm : m.id ∈ ids
      · rw [if_pos hm] at h
        exact absurd h.2 (markDeleted_dead now m)
      · exact if_neg hm
    intro parent a ha b hb hap hbp
    obtain ⟨m, hm, rfl⟩ := List.mem_map.1 ha
    obtain ⟨n, hn, rfl⟩ := List.mem_map.1 hb
    have hmk := hkept m parent hap
    have hnk := hkept n parent hbp
    rw [hmk] at hap
    rw [hnk] at hbp
    rw [hmk, hnk]
    exact t.uxParent parent m hm n hn hap hbp

@[simp] theorem softDelete_rows (t : Messages J) (ids : List UUID) (now : Time) :
    (t.softDelete ids now).rows =
      t.rows.map fun m => if m.id ∈ ids then markDeleted now m else m := rfl

end Messages

structure ChatDb (J : Type) where
  sessions : Table Session.id
  messages : Messages J
  memories : MemoryTable

/-- An `INSERT` into `messages`, with the foreign key to `sessions`. -/
def ChatDb.insertMessage (db : ChatDb J) (m : Message J) : Option (ChatDb J) :=
  if db.sessions.has m.sessionId then
    (db.messages.insert m).map fun messages => { db with messages := messages }
  else none

/-! ## Requests -/

/-- `ClientLocation`. -/
structure ClientLocation where
  lat : PyFloat
  lng : PyFloat
  lat_range : lat.within 90 = true
  lng_range : lng.within 180 = true

/-- `ChatRequest`. -/
structure ChatRequest where
  sessionId : UUID
  clientMessageId : UUID
  message : Text
  clientTz : Text
  clientLocation : Option ClientLocation
  message_length : 1 ≤ message.length ∧ message.length ≤ 8000

/-- What a chat request reads from outside: `datetime.now(UTC)`, the database's `now()`, the
formatted `now_utc` of the prompt, and `uuid4()`. -/
structure ChatEnv where
  now : Time
  dbNow : Time
  nowUtc : Text
  assistantMessageId : UUID

/-! ## Service functions -/

/-- `get_session`. -/
def getSession (db : ChatDb J) (userId sessionId : UUID) : Option Session :=
  (db.sessions.find sessionId).filter fun s => s.userId = userId && s.deletedAt.isNone

theorem getSession_eq_some {db : ChatDb J} {userId sessionId : UUID} {s : Session} :
    getSession db userId sessionId = some s ↔
      s ∈ db.sessions.rows ∧ s.id = sessionId ∧ s.userId = userId ∧ s.live := by
  simp [getSession, Option.filter_eq_some_iff, Table.find_eq_some, and_assoc]

def titleAutofillChars : Nat := 60

/-- The flush of a `session` object after `last_message_at` was set and, where the object has
no title, `title` filled in; only changed columns are written. -/
def touchSession (sessions : Table Session.id) (session : Session) (now : Time)
    (title : Option Text) : Table Session.id :=
  sessions.mapRows
    (fun s => if s.id = session.id then
      { s with lastMessageAt := some now, title := title.orElse fun _ => s.title } else s)
    (fun s => by split <;> rfl)

/-- The row `record_user_message` inserts. -/
def userRow (env : ChatEnv) (userId : UUID) (session : Session) (req : ChatRequest) :
    Message J where
  id := req.clientMessageId
  sessionId := session.id
  userId := userId
  role := .user
  content := req.message
  events := none
  parentMessageId := none
  clientTz := some req.clientTz
  locationLat := req.clientLocation.map ClientLocation.lat
  locationLng := req.clientLocation.map ClientLocation.lng
  createdAt := env.dbNow
  deletedAt := none

/-- `record_user_message`: the row with the client's id, new or already there. -/
def recordUserMessage (db : ChatDb J) (env : ChatEnv) (userId : UUID) (session : Session)
    (req : ChatRequest) : Except ServiceError (Message J × ChatDb J) :=
  let row := userRow env userId session req
  match validateLocationPair row.locationLat row.locationLng with
  | .error e => .error e
  | .ok _ =>
    match db.messages.table.find req.clientMessageId with
    | some existing => .ok (existing, db)
    | none =>
      match db.insertMessage row with
      | none => .error (.integrity "messages")
      | some db' =>
        let title := if session.title.isNone then some (req.message.take titleAutofillChars)
          else none
        .ok (row, { db' with sessions := touchSession db'.sessions session env.now title })

/-- The message `record_assistant_message` inserts. -/
def assistantMessage (env : ChatEnv) (row : AssistantRow J) : Message J where
  id := row.id
  sessionId := row.sessionId
  userId := row.userId
  role := .assistant
  content := row.content
  events := row.events
  parentMessageId := some row.parentMessageId
  clientTz := none
  locationLat := none
  locationLng := none
  createdAt := env.dbNow
  deletedAt := none

/-- `record_assistant_message`; `none` is an `IntegrityError`, rolled back. -/
def recordAssistantMessage (db : ChatDb J) (env : ChatEnv) (session : Session)
    (row : AssistantRow J) : Option (ChatDb J) :=
  (db.insertMessage (assistantMessage env row)).map fun db' =>
    { db' with sessions := touchSession db'.sessions session env.now none }

/-- `find_assistant_for_user_message`. -/
def findAssistant (db : ChatDb J) (userMessageId : UUID) : Option (Message J) :=
  db.messages.rows.find? fun m => m.repliesTo userMessageId

/-- `HistoryTurn`. -/
structure HistoryTurn where
  role : Role
  content : Text
  deriving DecidableEq

/-- `ORDER BY created_at DESC, id DESC`. -/
def newestFirst (m n : Message J) : Prop :=
  n.createdAt < m.createdAt ∨ (n.createdAt = m.createdAt ∧ n.id.toNat ≤ m.id.toNat)

instance : DecidableRel (@newestFirst J) := fun _ _ => inferInstanceAs (Decidable (_ ∨ _))

theorem newestFirst_iff {m n : Message J} :
    newestFirst m n ↔ n.createdAt < m.createdAt ∨
      (n.createdAt = m.createdAt ∧ n.id.toNat ≤ m.id.toNat) := Iff.rfl

instance : Std.Total (@newestFirst J) where
  total m n := by
    rw [newestFirst_iff, newestFirst_iff]
    rcases lt_trichotomy m.createdAt n.createdAt with h | h | h
    · exact Or.inr (Or.inl h)
    · rcases le_total m.id.toNat n.id.toNat with hid | hid
      · exact Or.inr (Or.inr ⟨h, hid⟩)
      · exact Or.inl (Or.inr ⟨h.symm, hid⟩)
    · exact Or.inl (Or.inl h)

instance : IsTrans (Message J) newestFirst where
  trans a b c := by
    rw [newestFirst_iff, newestFirst_iff, newestFirst_iff]
    rintro (hab | ⟨hab, hid⟩) (hbc | ⟨hbc, hid'⟩)
    · exact Or.inl (hbc.trans hab)
    · exact Or.inl (hbc.trans_lt hab)
    · exact Or.inl (hbc.trans_eq hab)
    · exact Or.inr ⟨hbc.trans hab, hid'.trans hid⟩

/-- The order separates ids. -/
theorem newestFirst_antisymm {m n : Message J} (hmn : newestFirst m n) (hnm : newestFirst n m) :
    m.id = n.id := by
  rw [newestFirst_iff] at hmn hnm
  rcases hmn with hlt | ⟨heq, hid⟩ <;> rcases hnm with hlt' | ⟨heq', hid'⟩
  · exact absurd hlt (lt_asymm hlt')
  · exact absurd heq'.symm hlt.ne
  · exact absurd heq.symm hlt'.ne
  · exact BitVec.eq_of_toNat_eq (le_antisymm hid' hid)

/-- `load_recent_history`. -/
def loadRecentHistory (db : ChatDb J) (sessionId excludeMessageId : UUID) (limitPairs : Nat) :
    List HistoryTurn :=
  let rows := db.messages.rows.filter fun m =>
    m.sessionId = sessionId && m.deletedAt.isNone && m.id != excludeMessageId
  (((rows.insertionSort newestFirst).take (2 * limitPairs)).reverse).map fun m =>
    ⟨m.role, m.content⟩

/-! ## What the functions do -/

theorem ChatDb.insertMessage_eq_some {db db' : ChatDb J} {m : Message J} :
    db.insertMessage m = some db' ↔ (∃ s ∈ db.sessions.rows, s.id = m.sessionId) ∧
      ∃ messages, db.messages.insert m = some messages ∧
        db' = { db with messages := messages } := by
  unfold ChatDb.insertMessage
  rw [← Table.has_iff]
  split
  · rename_i hfk
    simp only [hfk, true_and, Option.map_eq_some_iff]
    exact exists_congr fun _ => and_congr_right fun _ => eq_comm
  · rename_i hfk
    simp [hfk]

@[simp] theorem touchSession_mem {sessions : Table Session.id} {session s : Session} {now : Time}
    {title : Option Text} (h : s ∈ (touchSession sessions session now title).rows) :
    ∃ s' ∈ sessions.rows, s.id = s'.id ∧ s.userId = s'.userId ∧ s.deletedAt = s'.deletedAt := by
  obtain ⟨s', hs', rfl⟩ := List.mem_map.1 h
  refine ⟨s', hs', ?_⟩
  split <;> simp

/-- **The user-message write**: the id was there and nothing changes, or the row is added. -/
theorem recordUserMessage_cases {db db' : ChatDb J} {env : ChatEnv} {userId : UUID}
    {session : Session} {req : ChatRequest} {row : Message J}
    (h : recordUserMessage db env userId session req = .ok (row, db')) :
    (row ∈ db.messages.rows ∧ row.id = req.clientMessageId ∧ db' = db) ∨
    (row = userRow env userId session req ∧
      (∀ m ∈ db.messages.rows, m.id ≠ req.clientMessageId) ∧
      db'.messages.rows = db.messages.rows ++ [userRow env userId session req] ∧
      ∃ title, db'.sessions = touchSession db.sessions session env.now title) := by
  unfold recordUserMessage at h
  simp only at h
  split at h
  · cases h
  split at h
  · rename_i existing hfind
    cases h
    obtain ⟨hmem, hid⟩ := Table.find_eq_some.1 hfind
    exact Or.inl ⟨hmem, hid, rfl⟩
  split at h
  · cases h
  rename_i db₁ hinsert
  cases h
  obtain ⟨_, messages, hmessages, rfl⟩ := ChatDb.insertMessage_eq_some.1 hinsert
  obtain ⟨_, _, hfresh, hrows⟩ := Messages.insert_eq_some.1 hmessages
  exact Or.inr ⟨rfl, hfresh, hrows, _, rfl⟩

theorem recordUserMessage_memories {db db' : ChatDb J} {env : ChatEnv} {userId : UUID}
    {session : Session} {req : ChatRequest} {m : Message J}
    (h : recordUserMessage db env userId session req = .ok (m, db')) :
    db'.memories = db.memories := by
  unfold recordUserMessage at h
  simp only at h
  split at h
  · cases h
  split at h
  · cases h; rfl
  split at h
  · cases h
  rename_i db₁ hinsert
  cases h
  obtain ⟨_, _, _, rfl⟩ := ChatDb.insertMessage_eq_some.1 hinsert
  rfl

/-- After the user-message write the id exists, and no other id was added. -/
theorem recordUserMessage_ids {db db' : ChatDb J} {env : ChatEnv} {userId : UUID}
    {session : Session} {req : ChatRequest} {m : Message J}
    (h : recordUserMessage db env userId session req = .ok (m, db')) :
    (∃ n ∈ db'.messages.rows, n.id = req.clientMessageId) ∧
      ∀ n : Message J, n.id ≠ req.clientMessageId →
        (n ∈ db'.messages.rows ↔ n ∈ db.messages.rows) := by
  rcases recordUserMessage_cases h with ⟨hm, hid, rfl⟩ | ⟨_, _, hrows, _⟩
  · exact ⟨⟨m, hm, hid⟩, fun _ _ => Iff.rfl⟩
  · rw [hrows]
    refine ⟨⟨userRow env userId session req, by simp, rfl⟩, fun n hn => ?_⟩
    rw [List.mem_append, List.mem_singleton]
    refine or_iff_left fun heq => hn ?_
    rw [heq]
    rfl

/-- A location the request schema accepts is accepted by the service. -/
theorem ClientLocation.valid (location : Option ClientLocation) :
    validateLocationPair (location.map ClientLocation.lat) (location.map ClientLocation.lng) =
      .ok () := by
  cases location with
  | none => rfl
  | some location => simp [validateLocationPair, location.lat_range, location.lng_range]

/-- A taken id is a retry: the row that is there comes back. -/
theorem recordUserMessage_of_mem {db : ChatDb J} {m : Message J} (hm : m ∈ db.messages.rows)
    (env : ChatEnv) (userId : UUID) (session : Session) {req : ChatRequest}
    (hid : m.id = req.clientMessageId) :
    recordUserMessage db env userId session req = .ok (m, db) := by
  have hfind : db.messages.table.find req.clientMessageId = some m :=
    Table.find_eq_some.2 ⟨hm, hid⟩
  simp only [recordUserMessage, userRow, ClientLocation.valid, hfind]

/-- In a session that exists the user-message write does not fail. -/
theorem recordUserMessage_succeeds {db : ChatDb J} (env : ChatEnv) (userId : UUID)
    {session : Session} (hsession : ∃ s ∈ db.sessions.rows, s.id = session.id)
    (req : ChatRequest) :
    ∃ m db', recordUserMessage db env userId session req = .ok (m, db') := by
  cases hfind : db.messages.table.find req.clientMessageId with
  | some m =>
    obtain ⟨hm, hid⟩ := Table.find_eq_some.1 hfind
    exact ⟨m, db, recordUserMessage_of_mem hm env userId session hid⟩
  | none =>
    obtain ⟨messages, hmessages⟩ : ∃ messages,
        db.messages.insert (userRow env userId session req) = some messages := by
      refine Messages.insert_of_fits ?_ nofun (Table.find_eq_none.1 hfind)
      rintro n hn ⟨parent, ⟨hp, _⟩, _⟩
      cases hp
    have hinsert : db.insertMessage (userRow env userId session req) =
        some { db with messages := messages } :=
      ChatDb.insertMessage_eq_some.2 ⟨hsession, messages, hmessages, rfl⟩
    simp only [recordUserMessage, hfind, hinsert]
    simp only [userRow, ClientLocation.valid]
    exact ⟨_, _, rfl⟩

theorem recordUserMessage_isOk {db : ChatDb J} (env : ChatEnv) (userId : UUID) {session : Session}
    (hsession : session ∈ db.sessions.rows) (req : ChatRequest) :
    ∃ m db', recordUserMessage db env userId session req = .ok (m, db') :=
  recordUserMessage_succeeds env userId ⟨session, hsession, rfl⟩ req

/-- **The assistant-message write.** -/
theorem recordAssistantMessage_eq_some {db db' : ChatDb J} {env : ChatEnv} {session : Session}
    {row : AssistantRow J} (h : recordAssistantMessage db env session row = some db') :
    (∀ m ∈ db.messages.rows, ¬ m.repliesTo row.parentMessageId) ∧
      (∃ m ∈ db.messages.rows, m.id = row.parentMessageId) ∧
      (∀ m ∈ db.messages.rows, m.id ≠ row.id) ∧
      (∃ s ∈ db.sessions.rows, s.id = row.sessionId) ∧
      db'.messages.rows = db.messages.rows ++ [assistantMessage env row] ∧
      db'.sessions = touchSession db.sessions session env.now none := by
  obtain ⟨db₁, hinsert, rfl⟩ := Option.map_eq_some_iff.1 h
  obtain ⟨hsession, messages, hmessages, rfl⟩ := ChatDb.insertMessage_eq_some.1 hinsert
  obtain ⟨hclash, hparent, hfresh, hrows⟩ := Messages.insert_eq_some.1 hmessages
  refine ⟨fun m hm hreply => ?_, hparent _ rfl, hfresh, hsession, hrows, rfl⟩
  exact hclash m hm ⟨_, ⟨rfl, rfl⟩, hreply⟩

/-- **When the assistant-message write succeeds.** -/
theorem recordAssistantMessage_isSome {db : ChatDb J} (env : ChatEnv) (session : Session)
    (row : AssistantRow J)
    (hfree : ∀ m ∈ db.messages.rows, ¬ m.repliesTo row.parentMessageId)
    (hparent : ∃ m ∈ db.messages.rows, m.id = row.parentMessageId)
    (hfresh : ∀ m ∈ db.messages.rows, m.id ≠ row.id)
    (hsession : ∃ s ∈ db.sessions.rows, s.id = row.sessionId) :
    ∃ db', recordAssistantMessage db env session row = some db' := by
  have hclash : ∀ n ∈ db.messages.rows, ¬ Messages.clash (assistantMessage env row) n := by
    rintro n hn ⟨parent, ⟨hp, _⟩, hreply⟩
    cases hp
    exact hfree n hn hreply
  have hfk : ∀ parent, (assistantMessage env row).parentMessageId = some parent →
      ∃ n ∈ db.messages.rows, n.id = parent := by
    rintro parent hp
    cases hp
    exact hparent
  obtain ⟨messages, hmessages⟩ := Messages.insert_of_fits hclash hfk hfresh
  exact ⟨_, Option.map_eq_some_iff.2 ⟨_, ChatDb.insertMessage_eq_some.2
    ⟨hsession, messages, hmessages, rfl⟩, rfl⟩⟩

/-- **The cached reply** is the live row under that parent. -/
theorem findAssistant_eq_some {db : ChatDb J} {parent : UUID} {m : Message J} :
    findAssistant db parent = some m ↔ m ∈ db.messages.rows ∧ m.repliesTo parent := by
  constructor
  · intro h
    exact ⟨List.mem_of_find?_eq_some h, by simpa using List.find?_some h⟩
  · rintro ⟨hm, hreply⟩
    cases hfind : findAssistant db parent with
    | none =>
      have hnone := List.find?_eq_none.1 hfind m hm
      simp [hreply] at hnone
    | some n =>
      have hn : n.repliesTo parent := by simpa using List.find?_some hfind
      rw [db.messages.uxParent parent n (List.mem_of_find?_eq_some hfind) m hm hn hreply]

theorem findAssistant_eq_none {db : ChatDb J} {parent : UUID} :
    findAssistant db parent = none ↔ ∀ m ∈ db.messages.rows, ¬ m.repliesTo parent := by
  simp [findAssistant, List.find?_eq_none]

/-- A user message is nobody's reply. -/
theorem findAssistant_recordUserMessage {db db' : ChatDb J} {env : ChatEnv} {userId : UUID}
    {session : Session} {req : ChatRequest} {m : Message J}
    (h : recordUserMessage db env userId session req = .ok (m, db')) (parent : UUID) :
    findAssistant db' parent = findAssistant db parent := by
  rcases recordUserMessage_cases h with ⟨_, _, rfl⟩ | ⟨_, _, hrows, _⟩
  · rfl
  · have huser : ¬ (userRow env userId session req : Message J).repliesTo parent := by
      rintro ⟨hp, _⟩
      cases hp
    simp [findAssistant, hrows, huser]

/-- The history is decided by the live rows of the session other than the excluded one. -/
theorem loadRecentHistory_congr {db₁ db₂ : ChatDb J} {sessionId exclude : UUID}
    (h : ∀ m : Message J, m.sessionId = sessionId → m.id ≠ exclude →
      (m ∈ db₁.messages.rows ↔ m ∈ db₂.messages.rows)) (limitPairs : Nat) :
    loadRecentHistory db₁ sessionId exclude limitPairs =
      loadRecentHistory db₂ sessionId exclude limitPairs := by
  have hrows : ∀ m : Message J,
      (m.sessionId = sessionId && m.deletedAt.isNone && m.id != exclude) = true →
        (m ∈ db₁.messages.table.rows ↔ m ∈ db₂.messages.table.rows) := by
    intro m hm
    simp only [Bool.and_eq_true, decide_eq_true_eq, bne_iff_ne] at hm
    exact h m hm.1.1 hm.2
  have hsorted := Table.insertionSort_filter_congr newestFirst
    (fun m n => newestFirst_antisymm) hrows
  simp only [loadRecentHistory, Messages.rows, hsorted]

end MeJournal
