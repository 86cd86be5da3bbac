import MeJournal.Chat.Concurrent
import MeJournal.Lib.Keyset
import MeJournal.Cursors
import Mathlib.Data.Int.ConditionallyCompleteOrder

/-!
# Listing messages and sessions page by page

`list_session_messages`, `list_sessions`, `create_session` and `delete_session` of
`app/services/sessions.py`, and runs in which their pages are fetched by following the cursors
while the tables change.

* `listSessionMessages_serves_asc`, `listSessionMessages_serves_desc`, `listSessions_serves` — the
  three listings are keyset traversals.
* `Stamped` — every session has a `last_message_at`; `stamped_write` keeps it over every write.
-/

namespace MeJournal

open scoped KeyOrder

variable {J : Type}

/-! ## Timestamp cursors -/

/-- `_encode_cursor` of a stored timestamp. -/
def timestampCursor (ts : Time) (rowId : UUID) : Option Text :=
  (DateTime.ofTime ts).map fun dt => encodeSessionCursor dt rowId

/-- `_decode_cursor` where a cursor is given. -/
def decodeSessionAfter (cp : CursorPlatform) : Option Text → Except PyExc (Option (Time × UUID))
  | none => .ok none
  | some cursor => (decodeSessionCursor cp cursor).map fun c => some (c.1.instant, c.2)

/-- A stored timestamp and an id, as a sort key. -/
abbrev StampKey := Time ×ₗ UUID

/-- The cursor of a key. -/
def stampCursor (k : StampKey) : Text := (timestampCursor (ofLex k).1 (ofLex k).2).getD []

def StampKey.Good (k : StampKey) : Prop := inDatetimeRange (ofLex k).1

theorem timestampCursor_of_good {k : StampKey} (h : k.Good) :
    timestampCursor (ofLex k).1 (ofLex k).2 = some (stampCursor k) := by
  obtain ⟨dt, hdt, _⟩ := ofTime_instant h
  simp [stampCursor, timestampCursor, hdt]

theorem decodeSessionAfter_stampCursor (cp : CursorPlatform) {cursor : Option StampKey}
    (h : ∀ k ∈ cursor, k.Good) :
    decodeSessionAfter cp (cursor.map stampCursor) = .ok (cursor.map fun k => ofLex k) := by
  cases cursor with
  | none => rfl
  | some k =>
    obtain ⟨dt, hdt, hinstant⟩ := ofTime_instant (h k rfl)
    have hcursor : stampCursor k = encodeSessionCursor dt (ofLex k).2 := by
      simp [stampCursor, timestampCursor, hdt]
    have hread := (DateTime.fromisoformat_isoformat dt).2 (ofTime_wholeOffset hdt)
    simp only [Option.map_some, decodeSessionAfter, hcursor,
      decodeSessionCursor_encodeSessionCursor cp hread, Except.map, hinstant]

/-! ## `list_session_messages` -/

inductive Direction where
  | asc
  | desc
  deriving DecidableEq

/-- `ORDER BY created_at ASC, id ASC`. -/
def oldestFirst (m n : Message J) : Prop :=
  m.createdAt < n.createdAt ∨ (m.createdAt = n.createdAt ∧ m.id ≤ n.id)

instance : DecidableRel (@oldestFirst J) := fun _ _ => inferInstanceAs (Decidable (_ ∨ _))

/-- The rows of the session. -/
def inSession (sessionId : UUID) (m : Message J) : Bool :=
  m.sessionId = sessionId && m.deletedAt.isNone

/-- The comparison with the cursor; it flips with the direction. -/
def pastCursor (direction : Direction) (c : Time × UUID) (m : Message J) : Bool :=
  match direction with
  | .asc => c.1 < m.createdAt || (m.createdAt = c.1 && c.2 < m.id)
  | .desc => m.createdAt < c.1 || (m.createdAt = c.1 && m.id < c.2)

/-- The selected messages in the order of the direction. -/
def orderedMessages (direction : Direction) (rows : List (Message J)) : List (Message J) :=
  match direction with
  | .asc => rows.insertionSort oldestFirst
  | .desc => rows.insertionSort newestFirst

/-- `list_session_messages`. -/
def listSessionMessages (cp : CursorPlatform) (messages : Messages J) (sessionId : UUID)
    (limit : Int) (direction : Direction) (cursor : Option Text) :
    Except PyExc (List (Message J) × Option Text) :=
  let limit := clampLimit limit
  match decodeSessionAfter cp cursor with
  | .error e => .error e
  | .ok after =>
    let rows := (orderedMessages direction (messages.rows.filter fun m =>
      inSession sessionId m && after.all fun c => pastCursor direction c m)).take (limit + 1)
    if limit < rows.length then
      .ok (rows.take limit, rows[limit - 1]?.bind fun last =>
        timestampCursor last.createdAt last.id)
    else .ok (rows, none)

/-- The sort key of a message. -/
def Message.stampKey (m : Message J) : StampKey := toLex (m.createdAt, m.id)

/-- Every message carries a timestamp that a `datetime` can hold. -/
def Messages.Timely (messages : Messages J) : Prop :=
  ∀ m ∈ messages.rows, inDatetimeRange m.createdAt

theorem stampKey_nodup (messages : Messages J) : (messages.rows.map Message.stampKey).Nodup := by
  refine List.Nodup.of_map (fun k => (ofLex k).2) ?_
  rw [List.map_map]
  exact messages.table.pk

theorem stampKey_le {m n : Message J} : m.stampKey ≤ n.stampKey ↔ oldestFirst m n := by
  rw [Message.stampKey, Message.stampKey, Prod.Lex.toLex_le_toLex]
  rfl

theorem toDual_stampKey_le {m n : Message J} :
    OrderDual.toDual m.stampKey ≤ OrderDual.toDual n.stampKey ↔ newestFirst m n := by
  rw [OrderDual.toDual_le_toDual, Message.stampKey, Message.stampKey, Prod.Lex.toLex_le_toLex]
  rfl

theorem lt_stampKey {k : StampKey} {m : Message J} :
    k < m.stampKey ↔ pastCursor .asc (ofLex k) m = true := by
  rw [Message.stampKey, Prod.Lex.lt_iff, eq_comm (a := (ofLex k).1)]
  simp [pastCursor]

theorem stampKey_lt {k : StampKey} {m : Message J} :
    m.stampKey < k ↔ pastCursor .desc (ofLex k) m = true := by
  rw [Message.stampKey, Prod.Lex.lt_iff]
  simp [pastCursor]

/-- The look-ahead page, whatever the direction: its last key is encoded. -/
theorem last_timestampCursor {rows : List (Message J)}
    (h : ∀ m ∈ rows, m.stampKey.Good) (i : Nat) :
    (rows[i]?.bind fun last => timestampCursor last.createdAt last.id) =
      (rows[i]?.map Message.stampKey).map stampCursor := by
  cases hrow : rows[i]? with
  | none => rfl
  | some m =>
    have hkey : ofLex m.stampKey = (m.createdAt, m.id) := rfl
    have hlast := timestampCursor_of_good (h m (List.mem_of_getElem? hrow))
    rw [hkey] at hlast
    rw [Option.bind_some, hlast]
    rfl

theorem listSessionMessages_serves_asc (cp : CursorPlatform) (sessionId : UUID) (limit : Int) :
    Keyset.Serves (fun t : Messages J => listSessionMessages cp t sessionId limit .asc)
      Messages.rows Message.stampKey (inSession sessionId) (clampLimit limit) stampCursor
      Messages.Timely StampKey.Good where
  positive := (clampLimit_range limit).1
  distinct t _ := stampKey_nodup t
  good t ht m hm _ := ht m hm
  served t ht cursor hcursor := by
    have hselect : orderedMessages .asc (t.rows.filter fun m => inSession sessionId m &&
        (cursor.map fun k => ofLex k).all fun c => pastCursor .asc c m) =
          Keyset.select Message.stampKey (inSession sessionId) cursor t.rows := by
      have hfilter : (fun m : Message J => inSession sessionId m &&
          (cursor.map fun k => ofLex k).all fun c => pastCursor .asc c m) =
            fun m => inSession sessionId m && cursor.all fun c => decide (c < m.stampKey) := by
        funext m
        cases cursor with
        | none => rfl
        | some k => simp [lt_stampKey]
      rw [hfilter]
      exact Keyset.insertionSort_congr (fun m n => stampKey_le.symm) _
    have hgood : ∀ m ∈ (Keyset.select Message.stampKey (inSession sessionId) cursor t.rows).take
        (clampLimit limit + 1), m.stampKey.Good :=
      fun m hm => ht m (Keyset.mem_select.1 (List.mem_of_mem_take hm)).1
    simp only [listSessionMessages, decodeSessionAfter_stampCursor cp hcursor, hselect, Keyset.page,
      last_timestampCursor hgood]
    split <;> rfl

theorem listSessionMessages_serves_desc (cp : CursorPlatform) (sessionId : UUID) (limit : Int) :
    Keyset.Serves (fun t : Messages J => listSessionMessages cp t sessionId limit .desc)
      Messages.rows (fun m => OrderDual.toDual m.stampKey) (inSession sessionId) (clampLimit limit)
      (fun k => stampCursor (OrderDual.ofDual k)) Messages.Timely
      (fun k => StampKey.Good (OrderDual.ofDual k)) where
  positive := (clampLimit_range limit).1
  distinct t _ := stampKey_nodup t
  good t ht m hm _ := ht m hm
  served t ht cursor hcursor := by
    have hdecode : decodeSessionAfter cp (cursor.map fun k => stampCursor (OrderDual.ofDual k)) =
        .ok (cursor.map fun k => ofLex (OrderDual.ofDual k)) :=
      decodeSessionAfter_stampCursor cp hcursor
    have hselect : orderedMessages .desc (t.rows.filter fun m => inSession sessionId m &&
        (cursor.map fun k => ofLex (OrderDual.ofDual k)).all fun c => pastCursor .desc c m) =
          Keyset.select (fun m => OrderDual.toDual m.stampKey) (inSession sessionId) cursor
            t.rows := by
      have hfilter : (fun m : Message J => inSession sessionId m &&
          (cursor.map fun k => ofLex (OrderDual.ofDual k)).all fun c => pastCursor .desc c m) =
            fun m => inSession sessionId m &&
              cursor.all fun c => decide (c < OrderDual.toDual m.stampKey) := by
        funext m
        cases cursor with
        | none => rfl
        | some k => simp [OrderDual.lt_toDual, stampKey_lt]
      rw [hfilter]
      exact Keyset.insertionSort_congr (fun m n => toDual_stampKey_le.symm) _
    have hgood : ∀ m ∈ (Keyset.select (fun m => OrderDual.toDual m.stampKey) (inSession sessionId)
        cursor t.rows).take (clampLimit limit + 1), m.stampKey.Good :=
      fun m hm => ht m (Keyset.mem_select.1 (List.mem_of_mem_take hm)).1
    simp only [listSessionMessages, hdecode, hselect, Keyset.page, last_timestampCursor hgood]
    split
    · simp only [Option.map_map]
      rfl
    · rfl

/-! ## `list_sessions` -/

/-- `AssertionError()`. -/
def assertionError : PyExc where
  cls := "AssertionError"
  bases := ["Exception"]
  message := []

/-- `last_message_at DESC`: a null comes first. -/
def sortsBefore : Option Time → Option Time → Bool
  | none, some _ => true
  | some a, some b => b < a
  | _, none => false

/-- `ORDER BY last_message_at DESC, id DESC`. -/
def newestActiveFirst (s t : Session) : Prop :=
  sortsBefore s.lastMessageAt t.lastMessageAt = true ∨
    (t.lastMessageAt = s.lastMessageAt ∧ t.id ≤ s.id)

instance : DecidableRel newestActiveFirst := fun _ _ => inferInstanceAs (Decidable (_ ∨ _))

/-- The comparison with the cursor; a null is never past it. -/
def lessActive (c : Time × UUID) (s : Session) : Bool :=
  s.lastMessageAt.any fun at' => at' < c.1 || (at' = c.1 && s.id < c.2)

/-- The user's live sessions. -/
def ownSession (userId : UUID) (s : Session) : Bool := s.userId = userId && s.deletedAt.isNone

/-- `list_sessions`. -/
def listSessions (cp : CursorPlatform) (sessions : Table Session.id) (userId : UUID) (limit : Int)
    (cursor : Option Text) : Except PyExc (List Session × Option Text) :=
  let limit := clampLimit limit
  match decodeSessionAfter cp cursor with
  | .error e => .error e
  | .ok after =>
    let rows := ((sessions.rows.filter fun s =>
      ownSession userId s && after.all fun c => lessActive c s).insertionSort
        newestActiveFirst).take (limit + 1)
    if limit < rows.length then
      match rows[limit - 1]? with
      | none => .ok (rows.take limit, none)
      | some last =>
        match last.lastMessageAt with
        | none => .error assertionError
        | some ts => .ok (rows.take limit, timestampCursor ts last.id)
    else .ok (rows, none)

/-- A null counts as later than every timestamp. -/
def nullLast : Option Time → WithTop Time
  | none => ⊤
  | some ts => ts

theorem nullLast_injective : Function.Injective nullLast := by
  intro a b h
  cases a with
  | none =>
    cases b with
    | none => rfl
    | some b => exact absurd h.symm WithTop.coe_ne_top
  | some a =>
    cases b with
    | none => exact absurd h WithTop.coe_ne_top
    | some b => exact congrArg some (WithTop.coe_injective h)

/-- The sort key of a session. -/
def Session.activeKey (s : Session) : (WithTop Time ×ₗ UUID)ᵒᵈ :=
  OrderDual.toDual (toLex (nullLast s.lastMessageAt, s.id))

/-- The timestamp of a key without null. -/
def activeStamp (k : (WithTop Time ×ₗ UUID)ᵒᵈ) : StampKey :=
  toLex ((ofLex (OrderDual.ofDual k)).1.untopD 0, (ofLex (OrderDual.ofDual k)).2)

/-- A timestamp that a `datetime` can hold. -/
def activeGood (k : (WithTop Time ×ₗ UUID)ᵒᵈ) : Prop :=
  (ofLex (OrderDual.ofDual k)).1 ≠ ⊤ ∧ (activeStamp k).Good

/-- Every session has a `last_message_at` that a `datetime` can hold. -/
def Stamped (sessions : Table Session.id) : Prop :=
  ∀ s ∈ sessions.rows, ∃ ts, s.lastMessageAt = some ts ∧ inDatetimeRange ts

theorem activeKey_nodup (sessions : Table Session.id) :
    (sessions.rows.map Session.activeKey).Nodup := by
  refine List.Nodup.of_map (fun k => (ofLex (OrderDual.ofDual k)).2) ?_
  rw [List.map_map]
  exact sessions.pk

theorem sortsBefore_iff (a b : Option Time) : sortsBefore a b = true ↔ nullLast b < nullLast a := by
  cases a with
  | none =>
    cases b with
    | none => exact iff_of_false nofun (lt_irrefl _)
    | some b => exact iff_of_true rfl (WithTop.coe_lt_top b)
  | some a =>
    cases b with
    | none => exact iff_of_false nofun not_top_lt
    | some b => exact decide_eq_true_iff.trans WithTop.coe_lt_coe.symm

theorem activeKey_le {s t : Session} : s.activeKey ≤ t.activeKey ↔ newestActiveFirst s t := by
  rw [Session.activeKey, Session.activeKey, OrderDual.toDual_le_toDual, Prod.Lex.toLex_le_toLex,
    newestActiveFirst, sortsBefore_iff, nullLast_injective.eq_iff]

theorem lt_activeKey {k : (WithTop Time ×ₗ UUID)ᵒᵈ} (h : activeGood k) {s : Session} :
    k < s.activeKey ↔ lessActive (ofLex (activeStamp k)) s = true := by
  rw [Session.activeKey, OrderDual.lt_toDual, Prod.Lex.lt_iff]
  obtain ⟨ts, hts⟩ := WithTop.ne_top_iff_exists.1 h.1
  simp only [lessActive, activeStamp, ofLex_toLex, ← hts, WithTop.untopD_coe]
  cases s.lastMessageAt with
  | none =>
    refine iff_of_false ?_ nofun
    rintro (hlt | ⟨heq, _⟩)
    · exact not_top_lt hlt
    · exact WithTop.top_ne_coe heq
  | some at' => simp [nullLast]

theorem activeStamp_activeKey {s : Session} {ts : Time} (h : s.lastMessageAt = some ts) :
    activeStamp s.activeKey = toLex (ts, s.id) := by
  simp [activeStamp, Session.activeKey, h, nullLast]

theorem activeGood_of_stamped {s : Session} {ts : Time} (h : s.lastMessageAt = some ts)
    (hrange : inDatetimeRange ts) : activeGood s.activeKey := by
  refine ⟨?_, ?_⟩
  · simp [Session.activeKey, h, nullLast]
  · rw [activeStamp_activeKey h]
    exact hrange

/-- `list_sessions` serves keyset pages while every session has a timestamp. -/
theorem listSessions_serves (cp : CursorPlatform) (userId : UUID) (limit : Int) :
    Keyset.Serves (fun t => listSessions cp t userId limit) Table.rows Session.activeKey
      (ownSession userId) (clampLimit limit) (fun k => stampCursor (activeStamp k)) Stamped
      activeGood where
  positive := (clampLimit_range limit).1
  distinct t _ := activeKey_nodup t
  good t ht s hs _ := by
    obtain ⟨ts, hts, hrange⟩ := ht s hs
    exact activeGood_of_stamped hts hrange
  served t ht cursor hcursor := by
    have hdecode : decodeSessionAfter cp (cursor.map fun k => stampCursor (activeStamp k)) =
        .ok (cursor.map fun k => ofLex (activeStamp k)) := by
      have hstamps : ∀ k ∈ cursor.map activeStamp, StampKey.Good k := by
        intro k hk
        obtain ⟨c, hc, rfl⟩ := Option.mem_map.1 hk
        exact (hcursor c hc).2
      simpa [Option.map_map, Function.comp_def] using decodeSessionAfter_stampCursor cp hstamps
    have hselect : ((t.rows.filter fun s => ownSession userId s &&
        (cursor.map fun k => ofLex (activeStamp k)).all fun c => lessActive c s).insertionSort
          newestActiveFirst) =
        Keyset.select Session.activeKey (ownSession userId) cursor t.rows := by
      have hfilter : (fun s => ownSession userId s &&
          (cursor.map fun k => ofLex (activeStamp k)).all fun c => lessActive c s) =
            fun s => ownSession userId s && cursor.all fun c => decide (c < s.activeKey) := by
        funext s
        cases cursor with
        | none => rfl
        | some k => simp [lt_activeKey (hcursor k rfl)]
      rw [hfilter]
      exact Keyset.insertionSort_congr (fun m n => activeKey_le.symm) _
    simp only [listSessions, hdecode, hselect, Keyset.page]
    split
    · rename_i hmore
      cases hlast : ((Keyset.select Session.activeKey (ownSession userId) cursor t.rows).take
          (clampLimit limit + 1))[clampLimit limit - 1]? with
      | none => rfl
      | some last =>
        have hmem := List.mem_of_mem_take (List.mem_of_getElem? hlast)
        obtain ⟨ts, hts, hrange⟩ := ht last (Keyset.mem_select.1 hmem).1
        have hkey := activeStamp_activeKey hts
        have hcursor' := timestampCursor_of_good (activeGood_of_stamped hts hrange).2
        rw [hkey, ofLex_toLex] at hcursor'
        simp only [hts, hcursor', Option.map_some, hkey]
    · rfl

/-! ## Writes -/

/-- `create_session`; `none` when the id is taken. -/
def createSession (db : ChatDb J) (env : ChatEnv) (userId newId : UUID) (title : Option Text) :
    Option (ChatDb J) :=
  (db.sessions.insert? ⟨newId, userId, title, some env.now, none⟩).map fun sessions =>
    { db with sessions := sessions }

/-- `delete_session`; `none` is `SessionNotFound`. -/
def deleteSession (db : ChatDb J) (env : ChatEnv) (userId sessionId : UUID) : Option (ChatDb J) :=
  match (db.sessions.find sessionId).filter fun s => s.userId = userId with
  | none => none
  | some row =>
    if row.deletedAt.isSome then some db
    else some (commitDelete db sessionId (liveMessageIds db sessionId) env.now)

/-- A call of the sessions service that writes. -/
inductive SessionWrite (J : Type) where
  | create (userId newId : UUID) (title : Option Text)
  | recordUser (userId : UUID) (session : Session) (req : ChatRequest)
  | recordAssistant (session : Session) (row : AssistantRow J)
  | delete (userId sessionId : UUID)

/-- The database after a call; one that raises is rolled back. -/
def sessionWrite (db : ChatDb J) : ChatEnv × SessionWrite J → ChatDb J
  | (env, .create userId newId title) => (createSession db env userId newId title).getD db
  | (env, .recordUser userId session req) =>
    match recordUserMessage db env userId session req with
    | .ok (_, db') => db'
    | .error _ => db
  | (env, .recordAssistant session row) => (recordAssistantMessage db env session row).getD db
  | (env, .delete userId sessionId) => (deleteSession db env userId sessionId).getD db

theorem stamped_touchSession {sessions : Table Session.id} (h : Stamped sessions)
    (session : Session) {now : Time} (hnow : inDatetimeRange now) (title : Option Text) :
    Stamped (touchSession sessions session now title) := by
  intro s hs
  obtain ⟨s', hs', rfl⟩ := List.mem_map.1 hs
  split
  · exact ⟨now, rfl, hnow⟩
  · exact h s' hs'

/-- **A write leaves no session without a timestamp.** -/
theorem stamped_write {db : ChatDb J} (h : Stamped db.sessions) {e : ChatEnv × SessionWrite J}
    (hnow : inDatetimeRange e.1.now) : Stamped (sessionWrite db e).sessions := by
  obtain ⟨env, write⟩ := e
  cases write with
  | create userId newId title =>
    simp only [sessionWrite, createSession]
    cases hins : db.sessions.insert? ⟨newId, userId, title, some env.now, none⟩ with
    | none => exact h
    | some sessions =>
      intro s hs
      have hrows := (Table.insert?_eq_some.1 hins).2
      simp only [Option.map_some, Option.getD_some, hrows, List.mem_append,
        List.mem_singleton] at hs
      rcases hs with hs | rfl
      · exact h s hs
      · exact ⟨env.now, rfl, hnow⟩
  | recordUser userId session req =>
    simp only [sessionWrite]
    cases hrec : recordUserMessage db env userId session req with
    | error _ => exact h
    | ok p =>
      rcases recordUserMessage_cases hrec with ⟨_, _, hdb⟩ | ⟨_, _, _, title, hsessions⟩
      · simpa only [hdb] using h
      · simp only [hsessions]
        exact stamped_touchSession h session hnow title
  | recordAssistant session row =>
    simp only [sessionWrite, recordAssistantMessage]
    cases hins : db.insertMessage (assistantMessage env row) with
    | none => exact h
    | some db' =>
      obtain ⟨_, _, _, rfl⟩ := ChatDb.insertMessage_eq_some.1 hins
      exact stamped_touchSession h session hnow none
  | delete userId sessionId =>
    simp only [sessionWrite, deleteSession]
    split
    · exact h
    · split
      · exact h
      · intro s hs
        obtain ⟨s', hs', rfl⟩ := List.mem_map.1 hs
        split
        · exact h s' hs'
        · exact h s' hs'

theorem stamped_run {db : ChatDb J} (h : Stamped db.sessions) {ws : List (ChatEnv × SessionWrite J)}
    (hws : ∀ w ∈ ws, inDatetimeRange w.1.now) : Stamped (Runs.run sessionWrite db ws).sessions := by
  have hsteps : ∀ p ∈ Runs.steps sessionWrite db ws, inDatetimeRange p.2.1.now :=
    fun p hp => hws p.2 (Runs.snd_mem hp)
  have hstep : ∀ (db : ChatDb J) (w : ChatEnv × SessionWrite J), Stamped db.sessions →
      inDatetimeRange w.1.now → Stamped (sessionWrite db w).sessions :=
    fun _ _ h hnow => stamped_write h hnow
  exact Runs.inv_states_of_steps hstep h hsteps _ (Runs.run_mem_states _ _ ws)

/-- The decoder has one error. -/
theorem decodeSessionAfter_error {cp : CursorPlatform} {cursor : Option Text} {e : PyExc}
    (h : decodeSessionAfter cp cursor = .error e) : e = malformedCursor := by
  cases cursor with
  | none => cases h
  | some cursor =>
    unfold decodeSessionAfter decodeSessionCursor at h
    simp only at h
    repeat' split at h
    all_goals cases h
    all_goals rfl

/-- With timestamps everywhere the assertion of `list_sessions` holds, whatever the cursor. -/
theorem listSessions_asserts (cp : CursorPlatform) {sessions : Table Session.id}
    (h : Stamped sessions) (userId : UUID) (limit : Int) (cursor : Option Text) :
    listSessions cp sessions userId limit cursor ≠ .error assertionError := by
  unfold listSessions
  simp only
  split
  · rename_i e he
    rw [decodeSessionAfter_error he]
    nofun
  · split
    · split
      · nofun
      · rename_i last hlast
        have hmem := List.mem_of_mem_take (List.mem_of_getElem? hlast)
        rw [List.mem_insertionSort, List.mem_filter] at hmem
        obtain ⟨ts, hts, _⟩ := h last hmem.1
        simp [hts]
    · nofun

/-! ## Following the cursors -/

/-- Strictly later in the direction. -/
def Message.follows (direction : Direction) (n m : Message J) : Prop :=
  match direction with
  | .asc => toLex (m.createdAt, m.id) < toLex (n.createdAt, n.id)
  | .desc => toLex (n.createdAt, n.id) < toLex (m.createdAt, m.id)

/-- A client lists the messages of a session while the table becomes any other. -/
abbrev messageListStep (cp : CursorPlatform) (sessionId : UUID) (limit : Int)
    (direction : Direction) :
    Keyset.Client (Messages J) (Message J) Text PyExc → Keyset.ClientEvent (Messages J) →
      Keyset.Client (Messages J) (Message J) Text PyExc :=
  Keyset.clientStep (fun t => listSessionMessages cp t sessionId limit direction) fun _ t => t

/-- The message `id` of the session is live. -/
def messageListed (sessionId id : UUID) (ts : Time) (messages : Messages J) : Prop :=
  ∃ m ∈ messages.rows, m.id = id ∧ m.createdAt = ts ∧ m.sessionId = sessionId ∧ m.live

theorem messageListed_lists {sessionId id : UUID} {ts : Time} {messages : Messages J}
    (h : messageListed sessionId id ts messages) :
    Keyset.Lists Message.stampKey (inSession sessionId) (fun m => m.id = id) (toLex (ts, id))
      messages.rows := by
  obtain ⟨m, hm, hid, hts, hsession, hlive⟩ := h
  refine ⟨⟨m, hm, by simp [inSession, hsession, hlive], by simpa using hid⟩, fun n hn hnid => ?_⟩
  have hnid : n.id = id := by simpa using hnid
  obtain rfl : n = m := messages.table.eq_of_key_eq hn hm (hnid.trans hid.symm)
  rw [Message.stampKey, hid, hts]

/-- **Messages by pages.** -/
theorem messages_by_pages (cp : CursorPlatform) (sessionId : UUID) (limit : Int)
    (direction : Direction) {messages : Messages J} (hclock : messages.Timely)
    {es : List (Keyset.ClientEvent (Messages J))} (hes : ∀ e ∈ es, e.Allows Messages.Timely) :
    let s :=
      Runs.run (messageListStep cp sessionId limit direction) (Keyset.clientStart messages) es
    s.raised = [] ∧ (∀ pg ∈ s.pages, pg.length ≤ clampLimit limit) ∧
      s.pages.flatten.Pairwise (fun m n => n.follows direction m) ∧
      (∀ id ts, (∀ q ∈ Runs.steps (messageListStep cp sessionId limit direction)
            (Keyset.clientStart messages) es,
          q.2.isFetch = true → q.1.next ≠ none → messageListed sessionId id ts q.1.store) →
        s.next = none → s.pages.flatten.countP (fun m => m.id = id) = 1) ∧
      ((∀ e ∈ es, e.isFetch = true) → messages.rows.length < es.length → s.next = none) := by
  have hchange : ∀ t t' : Messages J, t.Timely → t'.Timely → t'.Timely := fun _ _ _ h => h
  cases direction with
  | asc =>
    have hserves := listSessionMessages_serves_asc (J := J) cp sessionId limit
    obtain ⟨hraised, hshort, hkeys⟩ := Keyset.client_run hserves hchange hclock hes
    refine ⟨hraised, hshort, hkeys, fun id ts hlisted hdone => ?_,
      fun hfetch => (Keyset.client_still hserves hclock hfetch).1⟩
    exact Keyset.client_tracked hserves hchange hclock hes
      (fun q hq hfetch hnext => messageListed_lists (hlisted q hq hfetch hnext)) hdone
  | desc =>
    have hserves := listSessionMessages_serves_desc (J := J) cp sessionId limit
    obtain ⟨hraised, hshort, hkeys⟩ := Keyset.client_run hserves hchange hclock hes
    refine ⟨hraised, hshort, hkeys, fun id ts hlisted hdone => ?_,
      fun hfetch => (Keyset.client_still hserves hclock hfetch).1⟩
    refine Keyset.client_tracked hserves hchange hclock hes (k := OrderDual.toDual (toLex (ts, id)))
      (fun q hq hfetch hnext => ?_) hdone
    obtain ⟨hex, hkeyed⟩ := messageListed_lists (hlisted q hq hfetch hnext)
    exact ⟨hex, fun m hm hid => congrArg OrderDual.toDual (hkeyed m hm hid)⟩

/-- **The two directions** of an unchanged table are the reverse of each other. -/
theorem messages_reversed (cp : CursorPlatform) (sessionId : UUID) (limit limit' : Int)
    {messages : Messages J} (hclock : messages.Timely)
    {es es' : List (Keyset.ClientEvent (Messages J))} (hes : ∀ e ∈ es, e.isFetch = true)
    (hes' : ∀ e ∈ es', e.isFetch = true) :
    let s := Runs.run (messageListStep cp sessionId limit .asc) (Keyset.clientStart messages) es
    let s' := Runs.run (messageListStep cp sessionId limit' .desc) (Keyset.clientStart messages) es'
    s.next = none → s'.next = none → s.pages.flatten = s'.pages.flatten.reverse := by
  intro s s' hdone hdone'
  have hasc : s.pages.flatten = _ :=
    (Keyset.client_still (listSessionMessages_serves_asc cp sessionId limit) hclock hes).2 hdone
  have hdesc : s'.pages.flatten = _ :=
    (Keyset.client_still (listSessionMessages_serves_desc cp sessionId limit') hclock hes').2 hdone'
  rw [hasc, hdesc, Keyset.select_toDual (stampKey_nodup messages), List.reverse_reverse]

/-- A client lists the sessions of a user while the service writes. -/
abbrev sessionListStep (cp : CursorPlatform) (userId : UUID) (limit : Int) :
    Keyset.Client (ChatDb J) Session Text PyExc →
      Keyset.ClientEvent (ChatEnv × SessionWrite J) → Keyset.Client (ChatDb J) Session Text PyExc :=
  Keyset.clientStep (fun db => listSessions cp db.sessions userId limit) sessionWrite

/-- The session `id` of the user is live, last active at `ts`. -/
def sessionListed (userId id : UUID) (ts : Time) (sessions : Table Session.id) : Prop :=
  ∃ s ∈ sessions.rows, s.id = id ∧ s.lastMessageAt = some ts ∧ s.userId = userId ∧ s.live

theorem sessionListed_lists {userId id : UUID} {ts : Time} {sessions : Table Session.id}
    (h : sessionListed userId id ts sessions) :
    Keyset.Lists Session.activeKey (ownSession userId) (fun s => s.id = id)
      (OrderDual.toDual (toLex (nullLast (some ts), id))) sessions.rows := by
  obtain ⟨s, hs, hid, hts, huser, hlive⟩ := h
  refine ⟨⟨s, hs, by simp [ownSession, huser, hlive], by simpa using hid⟩, fun t ht htid => ?_⟩
  have htid : t.id = id := by simpa using htid
  obtain rfl : t = s := sessions.eq_of_key_eq ht hs (htid.trans hid.symm)
  rw [Session.activeKey, hid, hts]

/-- **Sessions by pages.** -/
theorem sessions_by_pages (cp : CursorPlatform) (userId : UUID) (limit : Int) {db : ChatDb J}
    (h : Stamped db.sessions) {es : List (Keyset.ClientEvent (ChatEnv × SessionWrite J))}
    (hes : ∀ e ∈ es, e.Allows fun w => inDatetimeRange w.1.now) :
    let s := Runs.run (sessionListStep cp userId limit) (Keyset.clientStart db) es
    s.raised = [] ∧
      (∀ id ts, (∀ q ∈ Runs.steps (sessionListStep cp userId limit) (Keyset.clientStart db) es,
          q.2.isFetch = true → q.1.next ≠ none → sessionListed userId id ts q.1.store.sessions) →
        s.next = none → s.pages.flatten.countP (fun x => x.id = id) = 1) ∧
      ((∀ e ∈ es, e.isFetch = true) → db.sessions.rows.length < es.length → s.next = none) := by
  have hserves := (listSessions_serves cp userId limit).comap (ChatDb.sessions (J := J))
  have hchange : ∀ (db : ChatDb J) (w : ChatEnv × SessionWrite J), Stamped db.sessions →
      inDatetimeRange w.1.now → Stamped (sessionWrite db w).sessions :=
    fun _ _ h hnow => stamped_write h hnow
  refine ⟨(Keyset.client_run hserves hchange h hes).1, fun id ts hlisted hdone => ?_,
    fun hfetch => (Keyset.client_still hserves h hfetch).1⟩
  exact Keyset.client_tracked hserves hchange h hes
    (fun q hq hfetch hnext => sessionListed_lists (hlisted q hq hfetch hnext)) hdone

/-- A database without sessions and messages. -/
def emptyChatDb (memories : MemoryTable) : ChatDb J := ⟨Table.empty, Messages.empty, memories⟩

theorem stamped_empty (memories : MemoryTable) :
    Stamped (emptyChatDb memories : ChatDb J).sessions := by
  intro s hs
  cases hs

/-- **Listings by pages.**  Following the cursors of `list_session_messages` in either direction
returns every message that stays live exactly once, in strictly monotone `(created_at, id)` order,
whatever the table becomes between the pages; on an unchanged table the directions are reverses.
From every database that the service's writes reach, following those of `list_sessions` returns
every session that stays live and untouched exactly once, and its assertion never fails. -/
theorem listings_by_pages (cp : CursorPlatform) :
    (∀ (sessionId : UUID) (limit : Int) (direction : Direction) (messages : Messages J)
        (es : List (Keyset.ClientEvent (Messages J))),
      messages.Timely → (∀ e ∈ es, e.Allows Messages.Timely) →
      let s := Runs.run (messageListStep cp sessionId limit direction)
        (Keyset.clientStart messages) es
      s.raised = [] ∧ (∀ pg ∈ s.pages, pg.length ≤ clampLimit limit) ∧
        s.pages.flatten.Pairwise (fun m n => n.follows direction m) ∧
        (∀ id ts, (∀ q ∈ Runs.steps (messageListStep cp sessionId limit direction)
              (Keyset.clientStart messages) es,
            q.2.isFetch = true → q.1.next ≠ none → messageListed sessionId id ts q.1.store) →
          s.next = none → s.pages.flatten.countP (fun m => m.id = id) = 1) ∧
        ((∀ e ∈ es, e.isFetch = true) → messages.rows.length < es.length → s.next = none)) ∧
    (∀ (sessionId : UUID) (limit limit' : Int) (messages : Messages J)
        (es es' : List (Keyset.ClientEvent (Messages J))),
      messages.Timely → (∀ e ∈ es, e.isFetch = true) → (∀ e ∈ es', e.isFetch = true) →
      let s := Runs.run (messageListStep cp sessionId limit .asc) (Keyset.clientStart messages) es
      let s' := Runs.run (messageListStep cp sessionId limit' .desc) (Keyset.clientStart messages)
        es'
      s.next = none → s'.next = none → s.pages.flatten = s'.pages.flatten.reverse) ∧
    (∀ (memories : MemoryTable) (ws : List (ChatEnv × SessionWrite J)),
      (∀ w ∈ ws, inDatetimeRange w.1.now) →
      let db := Runs.run sessionWrite (emptyChatDb memories) ws
      (∀ userId limit cursor,
        listSessions cp db.sessions userId limit cursor ≠ .error assertionError) ∧
      ∀ (userId : UUID) (limit : Int) (es : List (Keyset.ClientEvent (ChatEnv × SessionWrite J))),
        (∀ e ∈ es, e.Allows fun w => inDatetimeRange w.1.now) →
        let s := Runs.run (sessionListStep cp userId limit) (Keyset.clientStart db) es
        s.raised = [] ∧
          (∀ id ts, (∀ q ∈ Runs.steps (sessionListStep cp userId limit) (Keyset.clientStart db) es,
              q.2.isFetch = true → q.1.next ≠ none →
                sessionListed userId id ts q.1.store.sessions) →
            s.next = none → s.pages.flatten.countP (fun x => x.id = id) = 1) ∧
          ((∀ e ∈ es, e.isFetch = true) → db.sessions.rows.length < es.length →
            s.next = none)) := by
  refine ⟨?_, ?_, ?_⟩
  · intro sessionId limit direction messages es hclock hes
    exact messages_by_pages cp sessionId limit direction hclock hes
  · intro sessionId limit limit' messages es es' hclock hes hes'
    exact messages_reversed cp sessionId limit limit' hclock hes hes'
  · intro memories ws hws
    have hstamped := stamped_run (stamped_empty memories) hws
    refine ⟨fun userId limit cursor => listSessions_asserts cp hstamped userId limit cursor, ?_⟩
    intro userId limit es hes
    exact sessions_by_pages cp userId limit hstamped hes

instance (messages : Messages J) : Decidable messages.Timely :=
  inferInstanceAs (Decidable (∀ m ∈ messages.rows, _))

instance (sessionId id : UUID) (ts : Time) (messages : Messages J) :
    Decidable (messageListed sessionId id ts messages) :=
  inferInstanceAs (Decidable (∃ m ∈ messages.rows, _))

/-- A session with two user messages of the same instant. -/
def twoMessages : Messages Unit :=
  (Runs.run sessionWrite (emptyChatDb Table.empty)
    [(⟨0, 0, [], 0⟩, .create 7 1 none),
      (⟨0, 0, [], 0⟩, .recordUser 7 ⟨1, 7, none, some 0, none⟩
        ⟨1, 20, "good".toList, "UTC".toList, none, by decide⟩),
      (⟨0, 0, [], 0⟩, .recordUser 7 ⟨1, 7, none, some 0, none⟩
        ⟨1, 21, "evening".toList, "UTC".toList, none, by decide⟩)]).messages

theorem twoMessages_timely : twoMessages.Timely := by decide +kernel

theorem listings_by_pages_of_one :
    (Runs.run (messageListStep plainCursors 1 0 .desc) (Keyset.clientStart twoMessages)
      [.fetch, .change twoMessages, .fetch]).pages.flatten.countP (fun m => m.id = 20) = 1 :=
  ((listings_by_pages (J := Unit) plainCursors).1 1 0 .desc twoMessages
    [.fetch, .change twoMessages, .fetch] twoMessages_timely
    (by simp only [List.forall_mem_cons]; exact ⟨trivial, twoMessages_timely, trivial, by simp⟩)
    ).2.2.2.1 20 0 (by decide +kernel) (by decide +kernel)

end MeJournal
