import MeJournal.Chat.Endpoint

/-!
# What other users' rows can change in a chat response

Two databases that agree on everything of one user, and the same request by that user.

* `Agree` — the same sessions, messages and memories of the user, anything else elsewhere.
* `isolated_iff` — the two responses are the same and replay only replies of the user in the
  named session, exactly when every live reply under the request's `client_message_id` is one.
-/

namespace MeJournal

variable {M J : Type}

/-! ## The two databases -/

/-- A message of the user: written by them, or lying in one of their sessions. -/
def ChatDb.OwnMessage (db : ChatDb J) (userId : UUID) (m : Message J) : Prop :=
  m.userId = userId ∨ ∃ s ∈ db.sessions.rows, s.userId = userId ∧ s.id = m.sessionId

/-- The databases hold the same rows of the user. -/
structure Agree (userId : UUID) (db₁ db₂ : ChatDb J) : Prop where
  sessions : ∀ s : Session, s.userId = userId → (s ∈ db₁.sessions.rows ↔ s ∈ db₂.sessions.rows)
  messages : ∀ m : Message J, db₁.OwnMessage userId m →
    (m ∈ db₁.messages.rows ↔ m ∈ db₂.messages.rows)
  memories : ∀ m : Memory, m.userId = userId → (m ∈ db₁.memories.rows ↔ m ∈ db₂.memories.rows)

instance (db : ChatDb J) (userId : UUID) (m : Message J) : Decidable (db.OwnMessage userId m) :=
  inferInstanceAs (Decidable (_ ∨ ∃ s ∈ db.sessions.rows, _))

theorem forall_mem_iff {α : Type} {p : α → Prop} {xs ys : List α} :
    (∀ a, p a → (a ∈ xs ↔ a ∈ ys)) ↔ (∀ a ∈ xs, p a → a ∈ ys) ∧ ∀ a ∈ ys, p a → a ∈ xs := by
  refine ⟨fun h => ⟨fun a ha hp => (h a hp).1 ha, fun a ha hp => (h a hp).2 ha⟩, fun h a hp => ?_⟩
  exact ⟨fun ha => h.1 a ha hp, fun ha => h.2 a ha hp⟩

instance [DecidableEq J] (userId : UUID) (db₁ db₂ : ChatDb J) :
    Decidable (Agree userId db₁ db₂) :=
  decidable_of_iff
    (((∀ s ∈ db₁.sessions.rows, s.userId = userId → s ∈ db₂.sessions.rows) ∧
        ∀ s ∈ db₂.sessions.rows, s.userId = userId → s ∈ db₁.sessions.rows) ∧
      ((∀ m ∈ db₁.messages.rows, db₁.OwnMessage userId m → m ∈ db₂.messages.rows) ∧
        ∀ m ∈ db₂.messages.rows, db₁.OwnMessage userId m → m ∈ db₁.messages.rows) ∧
      (∀ m ∈ db₁.memories.rows, m.userId = userId → m ∈ db₂.memories.rows) ∧
        ∀ m ∈ db₂.memories.rows, m.userId = userId → m ∈ db₁.memories.rows) (by
    rw [← forall_mem_iff, ← forall_mem_iff, ← forall_mem_iff]
    exact ⟨fun h => ⟨h.1, h.2.1, h.2.2⟩, fun h => ⟨h.sessions, h.messages, h.memories⟩⟩)

/-- The row a request replays, if it replays one. -/
def replayedRow (env : ChatEnv) (userId : UUID) (req : ChatRequest) (db : ChatDb J) :
    Option (Message J) :=
  match getSession db userId req.sessionId with
  | none => none
  | some session =>
    match recordUserMessage db env userId session req with
    | .error _ => none
    | .ok (_, db') => findAssistant db' req.clientMessageId

/-- What a request replays is the user's, in the session it names. -/
def ReplaysOwn (env : ChatEnv) (userId : UUID) (req : ChatRequest) (db : ChatDb J) : Prop :=
  ∀ m, replayedRow env userId req db = some m → m.userId = userId ∧ m.sessionId = req.sessionId

/-- Same packets from both databases, and no foreign replay from either. -/
def Isolated (codec : ToolCodec M J) (historyTurns : Nat) (agent : Agent M) (env : ChatEnv)
    (userId : UUID) (req : ChatRequest) (db₁ db₂ : ChatDb J) : Prop :=
  (chat codec historyTurns agent env userId req db₁).response =
      (chat codec historyTurns agent env userId req db₂).response ∧
    ReplaysOwn env userId req db₁ ∧ ReplaysOwn env userId req db₂

/-- If the user has the session, every live reply under the request's id is theirs, in it. -/
def RepliesOwn (userId : UUID) (req : ChatRequest) (db : ChatDb J) : Prop :=
  (getSession db userId req.sessionId).isSome → ∀ m ∈ db.messages.rows,
    m.repliesTo req.clientMessageId → m.userId = userId ∧ m.sessionId = req.sessionId

/-- `uuid4()` returned an id that no message has. -/
def FreshId (env : ChatEnv) (db : ChatDb J) : Prop :=
  ∀ m ∈ db.messages.rows, m.id ≠ env.assistantMessageId

instance (env : ChatEnv) (db : ChatDb J) : Decidable (FreshId env db) :=
  inferInstanceAs (Decidable (∀ m ∈ db.messages.rows, _))

/-! ## The scoped reads -/

theorem Agree.getSession_eq {userId : UUID} {db₁ db₂ : ChatDb J} (h : Agree userId db₁ db₂)
    (sessionId : UUID) : getSession db₁ userId sessionId = getSession db₂ userId sessionId := by
  refine Option.ext fun s => ?_
  rw [getSession_eq_some, getSession_eq_some]
  refine ⟨fun ⟨hs, hid, huser, hlive⟩ => ?_, fun ⟨hs, hid, huser, hlive⟩ => ?_⟩
  · exact ⟨(h.sessions s huser).1 hs, hid, huser, hlive⟩
  · exact ⟨(h.sessions s huser).2 hs, hid, huser, hlive⟩

theorem Agree.memories_eq {userId : UUID} {db₁ db₂ : ChatDb J} (h : Agree userId db₁ db₂)
    (id : UUID) : (db₁.memories.find id).filter (fun m => m.userId = userId) =
      (db₂.memories.find id).filter (fun m => m.userId = userId) := by
  refine Option.ext fun m => ?_
  simp only [Option.filter_eq_some_iff, Table.find_eq_some, decide_eq_true_eq]
  exact and_congr_left fun huser => and_congr_left fun _ => h.memories m huser

/-- The reply lookup agrees once the replies are known to be the user's. -/
theorem Agree.findAssistant_eq {userId : UUID} {req : ChatRequest} {db₁ db₂ : ChatDb J}
    (h : Agree userId db₁ db₂)
    (hown₁ : ∀ m ∈ db₁.messages.rows, m.repliesTo req.clientMessageId → m.userId = userId)
    (hown₂ : ∀ m ∈ db₂.messages.rows, m.repliesTo req.clientMessageId → m.userId = userId) :
    findAssistant db₁ req.clientMessageId = findAssistant db₂ req.clientMessageId := by
  refine Option.ext fun m => ?_
  rw [findAssistant_eq_some, findAssistant_eq_some]
  refine and_congr_left_iff.2 fun hreply => ⟨fun hm => ?_, fun hm => ?_⟩
  · exact (h.messages m (Or.inl (hown₁ m hm hreply))).1 hm
  · exact (h.messages m (Or.inl (hown₂ m hm hreply))).2 hm

/-- The agent is given the same input. -/
theorem Agree.agentInput_eq {userId : UUID} {req : ChatRequest} {env : ChatEnv}
    {db₁ db₂ db₁' db₂' : ChatDb J} {session : Session} {m₁ m₂ : Message J}
    (h : Agree userId db₁ db₂)
    (hsession : getSession db₁ userId req.sessionId = some session)
    (hrec₁ : recordUserMessage db₁ env userId session req = .ok (m₁, db₁'))
    (hrec₂ : recordUserMessage db₂ env userId session req = .ok (m₂, db₂'))
    (historyTurns : Nat) :
    agentInput historyTurns env userId req db₁' = agentInput historyTurns env userId req db₂' := by
  obtain ⟨hmem, hsid, huser, _⟩ := getSession_eq_some.1 hsession
  have hhistory : loadRecentHistory db₁' req.sessionId req.clientMessageId historyTurns =
      loadRecentHistory db₂' req.sessionId req.clientMessageId historyTurns := by
    refine loadRecentHistory_congr (fun m hm hid => ?_) historyTurns
    rw [(recordUserMessage_ids hrec₁).2 m hid, (recordUserMessage_ids hrec₂).2 m hid]
    exact h.messages m (Or.inr ⟨session, hmem, huser, hsid.trans hm.symm⟩)
  have hmemories := funext fun id => h.memories_eq id
  simp only [agentInput, hhistory, recordUserMessage_memories hrec₁,
    recordUserMessage_memories hrec₂, hmemories]

/-! ## The insert -/

/-- With a fresh id the insert fails only when the client used that very id. -/
theorem recordAssistantMessage_isSome_iff {userId : UUID} {req : ChatRequest} {env : ChatEnv}
    {db db' : ChatDb J} {session : Session} {m : Message J} (hfresh : FreshId env db)
    (hsession : getSession db userId req.sessionId = some session)
    (hrec : recordUserMessage db env userId session req = .ok (m, db'))
    (hcached : findAssistant db' req.clientMessageId = none) {row : AssistantRow J}
    (hid : row.id = env.assistantMessageId) (hparent : row.parentMessageId = req.clientMessageId)
    (hrow : row.sessionId = session.id) :
    (recordAssistantMessage db' env session row).isSome ↔
      req.clientMessageId ≠ env.assistantMessageId := by
  obtain ⟨hmem, _⟩ := getSession_eq_some.1 hsession
  obtain ⟨⟨n, hn, hnid⟩, hids⟩ := recordUserMessage_ids hrec
  constructor
  · intro hsome heq
    obtain ⟨db'', hinsert⟩ := Option.isSome_iff_exists.1 hsome
    have hnew := (recordAssistantMessage_eq_some hinsert).2.2.1 n hn
    exact hnew (hnid.trans (heq.trans hid.symm))
  · intro hne
    have hnew : ∀ k ∈ db'.messages.rows, k.id ≠ row.id := by
      intro k hk hkid
      rw [hid] at hkid
      have hkne : k.id ≠ req.clientMessageId := fun hkc => hne (hkc.symm.trans hkid)
      exact hfresh k ((hids k hkne).1 hk) hkid
    have hsession' : ∃ s ∈ db'.sessions.rows, s.id = row.sessionId := by
      rcases recordUserMessage_cases hrec with ⟨_, _, rfl⟩ | ⟨_, _, _, title, hsessions⟩
      · exact ⟨session, hmem, hrow.symm⟩
      · rw [hsessions]
        exact ⟨_, List.mem_map_of_mem hmem, by rw [hrow]; split <;> rfl⟩
    obtain ⟨db'', hinsert⟩ := recordAssistantMessage_isSome env session row
      (hparent ▸ findAssistant_eq_none.1 hcached) ⟨n, hn, hnid.trans hparent.symm⟩ hnew hsession'
    rw [hinsert]
    rfl

/-! ## The theorem -/

theorem replayedRow_of_session {env : ChatEnv} {userId : UUID} {req : ChatRequest}
    {db : ChatDb J} {session : Session}
    (hsession : getSession db userId req.sessionId = some session) :
    replayedRow env userId req db = findAssistant db req.clientMessageId := by
  obtain ⟨m, db', hrec⟩ :=
    recordUserMessage_isOk env userId (getSession_eq_some.1 hsession).1 req
  simp only [replayedRow, hsession, hrec]
  exact findAssistant_recordUserMessage hrec _

/-- What is replayed is exactly the live reply under the id. -/
theorem replaysOwn_iff (env : ChatEnv) (userId : UUID) (req : ChatRequest) (db : ChatDb J) :
    ReplaysOwn env userId req db ↔ RepliesOwn userId req db := by
  unfold ReplaysOwn RepliesOwn
  cases hsession : getSession db userId req.sessionId with
  | none => simp [replayedRow, hsession]
  | some session =>
    rw [replayedRow_of_session hsession]
    simp [findAssistant_eq_some]

/-- Own replies make the responses equal. -/
theorem chat_response_eq {codec : ToolCodec M J} {historyTurns : Nat} {agent : Agent M}
    {env : ChatEnv} {userId : UUID} {req : ChatRequest} {db₁ db₂ : ChatDb J}
    (h : Agree userId db₁ db₂) (hfresh₁ : FreshId env db₁) (hfresh₂ : FreshId env db₂)
    (hown₁ : RepliesOwn userId req db₁) (hown₂ : RepliesOwn userId req db₂) :
    (chat codec historyTurns agent env userId req db₁).response =
      (chat codec historyTurns agent env userId req db₂).response := by
  have hget := h.getSession_eq req.sessionId
  cases hsession₁ : getSession db₁ userId req.sessionId with
  | none => simp only [chat, hsession₁, hget ▸ hsession₁]
  | some session =>
    have hsession₂ : getSession db₂ userId req.sessionId = some session := hget ▸ hsession₁
    obtain ⟨m₁, db₁', hrec₁⟩ :=
      recordUserMessage_isOk env userId (getSession_eq_some.1 hsession₁).1 req
    obtain ⟨m₂, db₂', hrec₂⟩ :=
      recordUserMessage_isOk env userId (getSession_eq_some.1 hsession₂).1 req
    have hfind : findAssistant db₁ req.clientMessageId = findAssistant db₂ req.clientMessageId :=
      h.findAssistant_eq (fun m hm hr => (hown₁ (by simp [hsession₁]) m hm hr).1)
        (fun m hm hr => (hown₂ (by simp [hsession₂]) m hm hr).1)
    have hfind₁ := findAssistant_recordUserMessage hrec₁ req.clientMessageId
    have hfind₂ := findAssistant_recordUserMessage hrec₂ req.clientMessageId
    cases hcached : findAssistant db₁ req.clientMessageId with
    | some cached =>
      simp only [chat, hsession₁, hsession₂, hrec₁, hrec₂, hfind₁, hfind₂, ← hfind, hcached]
    | none =>
      have hnone₁ := hfind₁.trans hcached
      have hnone₂ := hfind₂.trans (hfind.symm.trans hcached)
      rw [chat_response_of_run hsession₁ hrec₁ hnone₁, chat_response_of_run hsession₂ hrec₂ hnone₂,
        h.agentInput_eq hsession₁ hrec₁ hrec₂ historyTurns]
      obtain ⟨hemitted, hraised⟩ := streamTurn_congr codec.dump (chatTurn userId session req)
        env.assistantMessageId (agent.run (agentInput historyTurns env userId req db₂'))
        (fun row hrow => by
          subst hrow
          exact (recordAssistantMessage_isSome_iff hfresh₁ hsession₁ hrec₁ hnone₁ rfl rfl rfl).trans
            (recordAssistantMessage_isSome_iff hfresh₂ hsession₂ hrec₂ hnone₂ rfl rfl rfl).symm)
      rw [hemitted, hraised]

/-- **The user sees nothing of other users' rows, exactly when** every live reply under the
request's id is the user's, in the named session. -/
theorem isolated_iff (codec : ToolCodec M J) (historyTurns : Nat) (agent : Agent M)
    (env : ChatEnv) (userId : UUID) (req : ChatRequest) (db₁ db₂ : ChatDb J)
    (h : Agree userId db₁ db₂) (hfresh₁ : FreshId env db₁) (hfresh₂ : FreshId env db₂) :
    Isolated codec historyTurns agent env userId req db₁ db₂ ↔
      RepliesOwn userId req db₁ ∧ RepliesOwn userId req db₂ := by
  unfold Isolated
  rw [replaysOwn_iff, replaysOwn_iff]
  constructor
  · exact fun hiso => hiso.2
  · exact fun hown => ⟨chat_response_eq h hfresh₁ hfresh₂ hown.1 hown.2, hown⟩

/-- User 7 and user 8, one session each. -/
def twoUsers : ChatDb Unit where
  sessions := ⟨[⟨5, 7, none, none, none⟩, ⟨6, 8, none, none, none⟩], by decide⟩
  messages := Messages.empty
  memories := Table.empty

/-- User 8 has completed a turn under the id 1. -/
def afterForeignTurn : ChatDb Unit :=
  (chat unitCodec 10 (textAgent "private".toList) (sampleEnv 100) 8
    (sampleRequest 6 1 "hi".toList (by decide)) twoUsers).db

/-- `isolated_iff` on two databases that differ in user 8's turn. -/
theorem isolated_iff_foreignTurn :
    Isolated unitCodec 10 (textAgent "ok".toList) (sampleEnv 101) 7
        (sampleRequest 5 1 "hello".toList (by decide)) afterForeignTurn twoUsers ↔
      RepliesOwn 7 (sampleRequest 5 1 "hello".toList (by decide)) afterForeignTurn ∧
        RepliesOwn 7 (sampleRequest 5 1 "hello".toList (by decide)) twoUsers :=
  isolated_iff unitCodec 10 (textAgent "ok".toList) (sampleEnv 101) 7
    (sampleRequest 5 1 "hello".toList (by decide)) afterForeignTurn twoUsers
    (by decide) (by decide) (by decide)

/-- User 7 sends user 8's message id and is streamed user 8's reply. -/
theorem foreign_reply_is_replayed :
    Agree 7 afterForeignTurn twoUsers ∧ FreshId (sampleEnv 101) afterForeignTurn ∧
      FreshId (sampleEnv 101) twoUsers ∧
      (chat unitCodec 10 (textAgent "ok".toList) (sampleEnv 101) 7
          (sampleRequest 5 1 "hello".toList (by decide)) afterForeignTurn).response ≠
        (chat unitCodec 10 (textAgent "ok".toList) (sampleEnv 101) 7
          (sampleRequest 5 1 "hello".toList (by decide)) twoUsers).response := by
  decide

end MeJournal
