import MeJournal.Chat.Endpoint
import MeJournal.Lib.Runs

/-!
# Which user message a stored reply answers

Sequences of `POST /chat` requests by any users.  Beside the database the state keeps, for
every committed reply, the `user_input` its agent ran on.

* `chat_messages` — requests only append messages.
* `attributed_states_iff` — every stored reply answers a user row of its own user and session
  whose content the agent ran on, exactly when no request of the run commits a reply under an
  existing row that is not that user row.
-/

namespace MeJournal

variable {M J : Type}

/-! ## Runs of requests -/

structure ChatCall (M : Type) where
  env : ChatEnv
  userId : UUID
  req : ChatRequest
  agent : Agent M

/-- The database, and the input behind each committed reply. -/
structure ChatLog (J : Type) where
  db : ChatDb J
  ranOn : List (UUID × Text)

def chatStep (codec : ToolCodec M J) (historyTurns : Nat) (s : ChatLog J) (e : ChatCall M) :
    ChatLog J :=
  let o := chat codec historyTurns e.agent e.env e.userId e.req s.db
  ⟨o.db, s.ranOn ++ (o.committed.map fun c => (c.1.id, c.2)).toList⟩

/-- Any sessions and memories, no messages. -/
def chatStart (sessions : Table Session.id) (memories : MemoryTable) : ChatLog J :=
  ⟨⟨sessions, Messages.empty, memories⟩, []⟩

/-! ## The property -/

/-- The row is a user message of this user in this session with this content. -/
def Message.IsTurn (m : Message J) (userId sessionId : UUID) (content : Text) : Prop :=
  m.role = .user ∧ m.userId = userId ∧ m.sessionId = sessionId ∧ m.content = content

instance (m : Message J) (userId sessionId : UUID) (content : Text) :
    Decidable (m.IsTurn userId sessionId content) :=
  inferInstanceAs (Decidable (_ ∧ _))

/-- The reply's parent is a user row of the same user and session, and the agent ran on that
row's content. -/
def Message.Attributed (s : ChatLog J) (m : Message J) : Prop :=
  ∃ parent ∈ s.db.messages.rows, m.parentMessageId = some parent.id ∧
    parent.IsTurn m.userId m.sessionId parent.content ∧ (m.id, parent.content) ∈ s.ranOn

def Attributed (s : ChatLog J) : Prop :=
  ∀ m ∈ s.db.messages.rows, m.role = .assistant → m.Attributed s

instance (s : ChatLog J) (m : Message J) : Decidable (m.Attributed s) :=
  inferInstanceAs (Decidable (∃ parent ∈ s.db.messages.rows, _))

instance (s : ChatLog J) : Decidable (Attributed s) :=
  inferInstanceAs (Decidable (∀ m ∈ s.db.messages.rows, _))

/-- The request runs the agent to a reply that can be stored, while the row with its
`client_message_id` is there, has no live reply, and is not the turn the agent runs on. -/
def Misattributes (historyTurns : Nat) (s : ChatLog J) (e : ChatCall M) : Prop :=
  (getSession s.db e.userId e.req.sessionId).isSome ∧
    (∀ m ∈ s.db.messages.rows, ¬ m.repliesTo e.req.clientMessageId) ∧
    (∀ m ∈ s.db.messages.rows, m.id ≠ e.env.assistantMessageId) ∧
    (e.agent.run (agentInput historyTurns e.env e.userId e.req s.db)).persistable = true ∧
    ∃ m ∈ s.db.messages.rows, m.id = e.req.clientMessageId ∧
      ¬ m.IsTurn e.userId e.req.sessionId e.req.message

/-! ## One request -/

/-- **What a request does to the messages**: it appends at most its user row and its reply. -/
theorem chat_messages (codec : ToolCodec M J) (historyTurns : Nat) (agent : Agent M)
    (env : ChatEnv) (userId : UUID) (req : ChatRequest) (db : ChatDb J) :
    db.messages.rows <+: (chat codec historyTurns agent env userId req db).db.messages.rows := by
  have hend := chat_end codec historyTurns agent env userId req db
  have hrec : ∀ {session m db'}, recordUserMessage db env userId session req = .ok (m, db') →
      db.messages.rows <+: db'.messages.rows := by
    intro session m db' h
    rcases recordUserMessage_cases h with ⟨_, _, rfl⟩ | ⟨_, _, hrows, _⟩
    · exact List.prefix_rfl
    · rw [hrows]
      exact List.prefix_append ..
  generalize chat codec historyTurns agent env userId req db = o at hend ⊢
  cases hend with
  | refused => exact List.prefix_rfl
  | recorded response hsession hrecord => exact hrec hrecord
  | saved response hsession hrecord hcached hrun hrow hinsert =>
    refine (hrec hrecord).trans ?_
    rw [(recordAssistantMessage_eq_some hinsert).2.2.2.2.1]
    exact List.prefix_append ..

/-- Every logged input belongs to a stored row. -/
def RanOnStored (s : ChatLog J) : Prop := ∀ c ∈ s.ranOn, ∃ m ∈ s.db.messages.rows, m.id = c.1

theorem ranOnStored_chatStep (codec : ToolCodec M J) (historyTurns : Nat) {s : ChatLog J}
    (e : ChatCall M) (h : RanOnStored s) : RanOnStored (chatStep codec historyTurns s e) := by
  have hbeg := chat_messages codec historyTurns e.agent e.env e.userId e.req s.db
  have hend := chat_end codec historyTurns e.agent e.env e.userId e.req s.db
  intro c hc
  rcases List.mem_append.1 hc with hc | hc
  · obtain ⟨m, hm, hid⟩ := h c hc
    exact ⟨m, hbeg.subset hm, hid⟩
  · simp only [chatStep]
    generalize chat codec historyTurns e.agent e.env e.userId e.req s.db = o at hend hc ⊢
    cases hend with
    | refused => cases hc
    | recorded => cases hc
    | @saved session m db' db'' row response hsession hrecord hcached hrun hrow hinsert =>
      have hrows := (recordAssistantMessage_eq_some hinsert).2.2.2.2.1
      obtain rfl : c = (row.id, e.req.message) := by simpa using hc
      exact ⟨assistantMessage e.env row, by rw [hrows]; simp, rfl⟩

/-- What was attributed stays attributed. -/
theorem Message.Attributed.mono {s s' : ChatLog J} {m : Message J} (h : m.Attributed s)
    (hrows : s.db.messages.rows <+: s'.db.messages.rows) (hran : s.ranOn <+: s'.ranOn) :
    m.Attributed s' := by
  obtain ⟨parent, hparent, hlink, hturn, hinput⟩ := h
  exact ⟨parent, hrows.subset hparent, hlink, hturn, hran.subset hinput⟩

/-- A request that does not misattribute keeps every reply attributed. -/
theorem attributed_chatStep {codec : ToolCodec M J} {historyTurns : Nat} {s : ChatLog J}
    {e : ChatCall M} (h : Attributed s) (hmis : ¬ Misattributes historyTurns s e) :
    Attributed (chatStep codec historyTurns s e) := by
  have hbeg := chat_messages codec historyTurns e.agent e.env e.userId e.req s.db
  have hend := chat_end codec historyTurns e.agent e.env e.userId e.req s.db
  have hold : ∀ m ∈ s.db.messages.rows, m.role = .assistant →
      m.Attributed (chatStep codec historyTurns s e) := fun m hm hrole =>
    (h m hm hrole).mono hbeg (List.prefix_append ..)
  intro m hm hrole
  by_cases hmem : m ∈ s.db.messages.rows
  · exact hold m hmem hrole
  simp only [chatStep] at hm hold ⊢
  generalize chat codec historyTurns e.agent e.env e.userId e.req s.db = o at hend hm hold ⊢
  cases hend with
  | refused => exact absurd hm hmem
  | recorded response hsession hrecord =>
    rcases recordUserMessage_cases hrecord with ⟨_, _, rfl⟩ | ⟨_, _, hrows, _⟩
    · exact absurd hm hmem
    · rw [hrows] at hm
      rcases List.mem_append.1 hm with hm | hm
      · exact absurd hm hmem
      · rw [List.mem_singleton.1 hm] at hrole
        cases hrole
  | @saved session u db' db'' row response hsession hrecord hcached hrun hrow hinsert =>
    obtain ⟨hfree, _, hfresh, _, hrows, _⟩ := recordAssistantMessage_eq_some hinsert
    obtain ⟨_, hsid, _, _⟩ := getSession_eq_some.1 hsession
    have hmsg : ∀ x ∈ db'.messages.rows, x.id = e.req.clientMessageId →
        x.IsTurn e.userId session.id e.req.message →
        (assistantMessage e.env row).Attributed
          ⟨db'', s.ranOn ++ [(row.id, e.req.message)]⟩ := by
      intro x hx hxid hturn
      subst hrow
      refine ⟨x, by rw [hrows]; exact List.mem_append_left _ hx, ?_, ?_, ?_⟩
      · rw [hxid]; rfl
      · exact ⟨hturn.1, hturn.2.1, hturn.2.2.1, rfl⟩
      · rw [hturn.2.2.2]
        simp [assistantMessage]
    rw [hrows] at hm
    rcases List.mem_append.1 hm with hm | hm
    · rcases recordUserMessage_cases hrecord with ⟨_, _, rfl⟩ | ⟨_, _, hrows', _⟩
      · exact absurd hm hmem
      · rw [hrows'] at hm
        rcases List.mem_append.1 hm with hm | hm
        · exact absurd hm hmem
        · rw [List.mem_singleton.1 hm] at hrole
          cases hrole
    · rw [List.mem_singleton.1 hm]
      rcases recordUserMessage_cases hrecord with ⟨hu, hid, rfl⟩ | ⟨rfl, _, hrows', _⟩
      · refine hmsg u hu hid ?_
        by_contra hturn
        rw [hsid] at hturn
        subst hrow
        exact hmis ⟨by simp [hsession], findAssistant_eq_none.1 hcached, hfresh, hrun, u, hu, hid,
          hturn⟩
      · exact hmsg (userRow e.env e.userId session e.req) (by rw [hrows']; simp) rfl
          ⟨rfl, rfl, rfl, rfl⟩

/-- A request that misattributes leaves a reply that is not attributed. -/
theorem not_attributed_of_misattributes (codec : ToolCodec M J) {historyTurns : Nat}
    {s : ChatLog J} {e : ChatCall M} (hran : RanOnStored s)
    (hmis : Misattributes historyTurns s e) : ¬ Attributed (chatStep codec historyTurns s e) := by
  obtain ⟨hsome, hfree, hfresh, hrun, x, hx, hxid, hturn⟩ := hmis
  obtain ⟨session, hsession⟩ := Option.isSome_iff_exists.1 hsome
  obtain ⟨hmem, hsid, _, _⟩ := getSession_eq_some.1 hsession
  have hrecord := recordUserMessage_of_mem hx e.env e.userId session hxid
  obtain ⟨row, hrow⟩ : ∃ row, turnRow codec.dump (chatTurn e.userId session e.req)
      e.env.assistantMessageId
      (e.agent.run (agentInput historyTurns e.env e.userId e.req s.db)).packets = row := ⟨_, rfl⟩
  have hrowId : row.id = e.env.assistantMessageId := by subst hrow; rfl
  have hrowSession : row.sessionId = session.id := by subst hrow; rfl
  have hrowUser : row.userId = e.userId := by subst hrow; rfl
  have hrowParent : row.parentMessageId = e.req.clientMessageId := by subst hrow; rfl
  obtain ⟨db'', hinsert⟩ := recordAssistantMessage_isSome e.env session row
    (hrowParent ▸ hfree) ⟨x, hx, hxid.trans hrowParent.symm⟩ (hrowId ▸ hfresh)
    ⟨session, hmem, hrowSession.symm⟩
  obtain ⟨hdb, hcommitted⟩ := chat_committed hsession hrecord (findAssistant_eq_none.2 hfree) hrun
    hrow hinsert
  have hrows := (recordAssistantMessage_eq_some hinsert).2.2.2.2.1
  have hstep : chatStep codec historyTurns s e =
      ⟨db'', s.ranOn ++ [(row.id, e.req.message)]⟩ := by
    simp only [chatStep, hdb, hcommitted]
    rfl
  intro hatt
  rw [hstep] at hatt
  obtain ⟨parent, hparent, hlink, hpturn, hinput⟩ :=
    hatt (assistantMessage e.env row) (by rw [hrows]; simp) rfl
  -- the only row with that id is `x`
  have hpx : parent = x := by
    refine db''.messages.table.eq_of_key_eq hparent ?_ ?_
    · have hx'' : x ∈ db''.messages.rows := by rw [hrows]; exact List.mem_append_left _ hx
      exact hx''
    · rw [hxid, ← hrowParent]
      exact (Option.some.inj hlink).symm
  subst hpx
  have hcontent : parent.content = e.req.message := by
    rcases List.mem_append.1 hinput with hinput | hinput
    · obtain ⟨m, hm, hid⟩ := hran _ hinput
      exact absurd (hid.trans hrowId) (hfresh m hm)
    · exact (Prod.mk.inj (List.mem_singleton.1 hinput)).2
  refine hturn ⟨hpturn.1, hpturn.2.1.trans hrowUser, ?_, hcontent⟩
  exact (hpturn.2.2.1.trans hrowSession).trans hsid

/-! ## Runs -/

/-- **Every stored reply answers its turn, exactly when** no request of the run commits a reply
under an existing row that is not that turn. -/
theorem attributed_states_iff (codec : ToolCodec M J) (historyTurns : Nat)
    (sessions : Table Session.id) (memories : MemoryTable) (es : List (ChatCall M)) :
    (∀ s ∈ Runs.states (chatStep codec historyTurns) (chatStart sessions memories) es,
        Attributed s) ↔
      ∀ p ∈ Runs.steps (chatStep codec historyTurns) (chatStart sessions memories) es,
        ¬ Misattributes historyTurns p.1 p.2 := by
  have hstep : ∀ s e, RanOnStored s → RanOnStored (chatStep codec historyTurns s e) :=
    fun _ e h => ranOnStored_chatStep codec historyTurns e h
  have hexact : ∀ s e, RanOnStored s → Attributed s →
      (Attributed (chatStep codec historyTurns s e) ↔ ¬ Misattributes historyTurns s e) := by
    intro s e hran hatt
    constructor
    · exact fun hnext hmis => not_attributed_of_misattributes codec hran hmis hnext
    · exact attributed_chatStep hatt
  have hran : RanOnStored (chatStart sessions memories : ChatLog J) := by
    simp [RanOnStored, chatStart]
  have hatt : Attributed (chatStart sessions memories : ChatLog J) := by
    simp [Attributed, chatStart]
  exact Runs.states_iff_steps hstep hexact hran hatt es

/-- A first attempt fails; the retry carries another message under the same id. -/
theorem retry_answers_other_message :
    ¬ ∀ s ∈ Runs.states (chatStep unitCodec 10)
      (chatStart (sampleSessions 5 7) Table.empty : ChatLog Unit)
      [⟨sampleEnv 100, 7, sampleRequest 5 1 "ran".toList (by decide), failingAgent⟩,
        ⟨sampleEnv 101, 7, sampleRequest 5 1 "swam".toList (by decide), textAgent "ok".toList⟩],
      Attributed s := by
  decide

end MeJournal
