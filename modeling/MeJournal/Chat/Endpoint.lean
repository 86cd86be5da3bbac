import MeJournal.Chat.Sessions
import MeJournal.Lib.Gen

/-!
# `POST /chat`

`app/api/chat.py` and `replay_stream` of `app/api/_chat_stream.py`.  The agent is a parameter:
a function of everything it is given, the owner's memories included.

* `chat` — one request, from `get_session` to the end of the stream.
* `chat_end` — the ways it can end, with the database it leaves.
-/

namespace MeJournal

variable {M J : Type}

/-! ## The agent and the tools -/

/-- What `run_agent_stream` is given; the tools read memories by id and owner. -/
structure AgentInput where
  userId : UUID
  userInput : Text
  nowUtc : Text
  clientTz : Text
  history : List HistoryTurn
  memories : UUID → Option Memory

/-- `run_agent_stream`: it yields text, tool and error packets. -/
structure Agent (M : Type) where
  run : AgentInput → AgentRun M
  packets : ∀ input, ∀ p ∈ (run input).packets, p.isAgentPacket = true

/-- The models of the tools: their JSON dumps and the validation of a dump. -/
structure ToolCodec (M J : Type) where
  dump : M → J
  loadArgs : String → J → Except PyExc M
  loadResult : String → J → Except PyExc M

/-- The keys of `TOOL_CLASS_BY_NAME`. -/
def toolClassByName : List String := ["search_memories", "manage_memory"]

def keyError (name : String) : PyExc where
  cls := "KeyError"
  bases := ["LookupError", "Exception"]
  message := '\'' :: name.toList ++ ['\'']

/-! ## `replay_stream` -/

/-- A generator of packets. -/
abbrev PacketGen (M : Type) := Gen Unit PyExc (Packet M)

/-- The call packet, if the event has arguments. -/
def replayCall (codec : ToolCodec M J) (e : ToolEvent J) : PacketGen M Unit :=
  match e.arguments with
  | none => pure ()
  | some arguments => do
    let arguments ← Gen.ofExcept (codec.loadArgs e.tool arguments)
    Gen.emit (.toolCall (some e.step) e.toolCallId e.tool arguments)

/-- The end packet, if the event has a status. -/
def replayEnd (codec : ToolCodec M J) (e : ToolEvent J) : PacketGen M Unit :=
  match e.status, e.result with
  | none, _ => pure ()
  | some status, none =>
    Gen.emit (.toolEnd (some e.step) e.toolCallId e.tool status none e.error)
  | some status, some result => do
    let result ← Gen.ofExcept (codec.loadResult e.tool result)
    Gen.emit (.toolEnd (some e.step) e.toolCallId e.tool status (some result) e.error)

/-- The `ToolEvent` case. -/
def replayTool (codec : ToolCodec M J) (e : ToolEvent J) : PacketGen M Unit :=
  if e.tool ∈ toolClassByName then do
    Gen.emit (.toolStart (some e.step) e.toolCallId e.tool)
    replayCall codec e
    replayEnd codec e
  else Gen.raise (keyError e.tool)

def replayEvents (codec : ToolCodec M J) : List (Event J) → PacketGen M Unit
  | [] => pure ()
  | .text e :: es => do
    Gen.emit (.textDelta (some e.step) e.content)
    replayEvents codec es
  | .tool e :: es => do
    replayTool codec e
    replayEvents codec es

/-- `replay_stream`. -/
def replayStream (codec : ToolCodec M J) (cached : Message J) : PacketGen M Unit := do
  Gen.emit (.start cached.id cached.sessionId)
  replayEvents codec (cached.events.getD [])
  Gen.emit (.finish "stop" cached.id)

/-! ## The route -/

/-- What the client gets. -/
inductive ChatResponse (M : Type) where
  /-- 404, "session not found". -/
  | notFound
  /-- 500: an exception before the stream. -/
  | failed (e : ServiceError)
  /-- 200: the packets of the stream, and the exception that broke it, if any. -/
  | stream (emitted : List (Packet M)) (raised : Option PyExc)
  deriving DecidableEq

/-- What a request left behind. -/
structure ChatOutcome (M J : Type) where
  response : ChatResponse M
  db : ChatDb J
  /-- The committed assistant row, with the `user_input` the agent ran on. -/
  committed : Option (AssistantRow J × Text)

def chatTurn (userId : UUID) (session : Session) (req : ChatRequest) : ChatTurn where
  userId := userId
  sessionId := session.id
  clientMessageId := req.clientMessageId

/-- The arguments of `run_agent_stream`. -/
def agentInput (historyTurns : Nat) (env : ChatEnv) (userId : UUID) (req : ChatRequest)
    (db : ChatDb J) : AgentInput where
  userId := userId
  userInput := req.message
  nowUtc := env.nowUtc
  clientTz := req.clientTz
  history := loadRecentHistory db req.sessionId req.clientMessageId historyTurns
  memories := fun id => (db.memories.find id).filter fun m => m.userId = userId

/-- `chat`, and the stream it returns. -/
def chat (codec : ToolCodec M J) (historyTurns : Nat) (agent : Agent M) (env : ChatEnv)
    (userId : UUID) (req : ChatRequest) (db : ChatDb J) : ChatOutcome M J :=
  match getSession db userId req.sessionId with
  | none => ⟨.notFound, db, none⟩
  | some session =>
    match recordUserMessage db env userId session req with
    | .error e => ⟨.failed e, db, none⟩
    | .ok (_, db') =>
      match findAssistant db' req.clientMessageId with
      | some cached =>
        let replay := replayStream codec cached ()
        ⟨.stream replay.emitted (match replay.result with | .ok _ => none | .error e => some e),
          db', none⟩
      | none =>
        let input := agentInput historyTurns env userId req db'
        let result := streamTurn codec.dump (chatTurn userId session req) env.assistantMessageId
          (agent.run input) (recordAssistantMessage db' env session)
        match result.committed with
        | none => ⟨.stream result.emitted result.raised, db', none⟩
        | some (row, db'') =>
          ⟨.stream result.emitted result.raised, db'', some (row, input.userInput)⟩

/-! ## Values to evaluate on -/

/-- Tools without data. -/
def unitCodec : ToolCodec Unit Unit := ⟨fun _ => (), fun _ _ => .ok (), fun _ _ => .ok ()⟩

/-- An agent that yields one text delta. -/
def textAgent (delta : Text) : Agent M where
  run := fun _ => ⟨[.textDelta none delta], none⟩
  packets := by simp [Packet.isAgentPacket, Packet.isContent, Packet.delta?]

/-- An agent that fails. -/
def failingAgent : Agent M where
  run := fun _ => ⟨[.error "agent_failed".toList "APIError".toList], none⟩
  packets := by simp [Packet.isAgentPacket, Packet.isContent, Packet.isError]

def sampleEnv (assistantMessageId : UUID) : ChatEnv := ⟨0, 0, [], assistantMessageId⟩

def sampleRequest (sessionId clientMessageId : UUID) (message : Text)
    (h : 1 ≤ message.length ∧ message.length ≤ 8000) : ChatRequest :=
  ⟨sessionId, clientMessageId, message, "UTC".toList, none, h⟩

/-- One live session. -/
def sampleSessions (sessionId userId : UUID) : Table Session.id :=
  ⟨[⟨sessionId, userId, none, none, none⟩], by simp⟩

/-! ## What one request can do -/

/-- The ways a request ends, with the guards it passed. -/
inductive ChatEnd (codec : ToolCodec M J) (historyTurns : Nat) (agent : Agent M) (env : ChatEnv)
    (userId : UUID) (req : ChatRequest) (db : ChatDb J) : ChatOutcome M J → Prop
  /-- No session, or the user message was rejected. -/
  | refused (response : ChatResponse M) :
      ChatEnd codec historyTurns agent env userId req db ⟨response, db, none⟩
  /-- A replay, or a run that left no row. -/
  | recorded {session : Session} {m : Message J} {db' : ChatDb J} (response : ChatResponse M)
      (hsession : getSession db userId req.sessionId = some session)
      (hrecord : recordUserMessage db env userId session req = .ok (m, db')) :
      ChatEnd codec historyTurns agent env userId req db ⟨response, db', none⟩
  /-- A run that committed its row. -/
  | saved {session : Session} {m : Message J} {db' db'' : ChatDb J} {row : AssistantRow J}
      (response : ChatResponse M)
      (hsession : getSession db userId req.sessionId = some session)
      (hrecord : recordUserMessage db env userId session req = .ok (m, db'))
      (hcached : findAssistant db' req.clientMessageId = none)
      (hrun : (agent.run (agentInput historyTurns env userId req db')).persistable = true)
      (hrow : turnRow codec.dump (chatTurn userId session req) env.assistantMessageId
        (agent.run (agentInput historyTurns env userId req db')).packets = row)
      (hinsert : recordAssistantMessage db' env session row = some db'') :
      ChatEnd codec historyTurns agent env userId req db ⟨response, db'', some (row, req.message)⟩

variable {σ : Type}

theorem streamTurn_committed {dump : M → J} {turn : ChatTurn} {id : UUID} {run : AgentRun M}
    {record : AssistantRow J → Option σ} {row : AssistantRow J} {s : σ} :
    (streamTurn dump turn id run record).committed = some (row, s) ↔
      run.persistable = true ∧ turnRow dump turn id run.packets = row ∧ record row = some s := by
  rw [← and_assoc, ← streamBody_row]
  unfold streamTurn
  split
  · rename_i hbody
    simp [hbody]
  · rename_i emitted row' raised hbody
    simp only [hbody, Option.some.injEq]
    split
    · rename_i hrecord
      refine iff_of_false nofun ?_
      rintro ⟨rfl, hrow⟩
      rw [hrecord] at hrow
      cases hrow
    · rename_i s' hrecord
      simp only [Option.some.injEq, Prod.mk.injEq]
      constructor
      · rintro ⟨rfl, rfl⟩
        exact ⟨rfl, hrecord⟩
      · rintro ⟨rfl, hrow⟩
        exact ⟨rfl, Option.some.inj (hrecord.symm.trans hrow)⟩

/-- **Inversion of one request.** -/
theorem chat_end (codec : ToolCodec M J) (historyTurns : Nat) (agent : Agent M) (env : ChatEnv)
    (userId : UUID) (req : ChatRequest) (db : ChatDb J) :
    ChatEnd codec historyTurns agent env userId req db
      (chat codec historyTurns agent env userId req db) := by
  unfold chat
  split
  · exact .refused _
  rename_i session hsession
  split
  · exact .refused _
  rename_i m db' hrecord
  split
  · exact .recorded _ hsession hrecord
  rename_i hcached
  simp only
  split
  · exact .recorded _ hsession hrecord
  rename_i row db'' hcommitted
  obtain ⟨hrun, hrow, hinsert⟩ := streamTurn_committed.1 hcommitted
  exact .saved _ hsession hrecord hcached hrun hrow hinsert

/-- A request that gets as far as the insert, and succeeds, commits the row. -/
theorem chat_committed {codec : ToolCodec M J} {historyTurns : Nat} {agent : Agent M}
    {env : ChatEnv} {userId : UUID} {req : ChatRequest} {db db' db'' : ChatDb J}
    {session : Session} {m : Message J} {row : AssistantRow J}
    (hsession : getSession db userId req.sessionId = some session)
    (hrecord : recordUserMessage db env userId session req = .ok (m, db'))
    (hcached : findAssistant db' req.clientMessageId = none)
    (hrun : (agent.run (agentInput historyTurns env userId req db')).persistable = true)
    (hrow : turnRow codec.dump (chatTurn userId session req) env.assistantMessageId
      (agent.run (agentInput historyTurns env userId req db')).packets = row)
    (hinsert : recordAssistantMessage db' env session row = some db'') :
    (chat codec historyTurns agent env userId req db).db = db'' ∧
      (chat codec historyTurns agent env userId req db).committed = some (row, req.message) := by
  have hcommitted : (streamTurn codec.dump (chatTurn userId session req) env.assistantMessageId
      (agent.run (agentInput historyTurns env userId req db'))
      (recordAssistantMessage db' env session)).committed = some (row, db'') :=
    streamTurn_committed.2 ⟨hrun, hrow, hinsert⟩
  constructor
  · simp only [chat, hsession, hrecord, hcached, hcommitted]
  · simp only [chat, hsession, hrecord, hcached, hcommitted]
    rfl

/-- The packets of a turn depend on the insert only through its success. -/
theorem streamTurn_congr (dump : M → J) (turn : ChatTurn) (id : UUID) (run : AgentRun M)
    {record₁ record₂ : AssistantRow J → Option σ}
    (h : ∀ row, turnRow dump turn id run.packets = row →
      ((record₁ row).isSome ↔ (record₂ row).isSome)) :
    (streamTurn dump turn id run record₁).emitted = (streamTurn dump turn id run record₂).emitted ∧
      (streamTurn dump turn id run record₁).raised =
        (streamTurn dump turn id run record₂).raised := by
  unfold streamTurn
  split
  · exact ⟨rfl, rfl⟩
  · rename_i emitted row raised hbody
    have hsome : (streamBody dump turn id run).2.1 = some row := by rw [hbody]
    have hrow : turnRow dump turn id run.packets = row := (streamBody_row.1 hsome).2
    have hiff := h row hrow
    cases h₁ : record₁ row <;> cases h₂ : record₂ row <;> simp_all

/-- The response of a request without a cached reply. -/
theorem chat_response_of_run {codec : ToolCodec M J} {historyTurns : Nat} {agent : Agent M}
    {env : ChatEnv} {userId : UUID} {req : ChatRequest} {db db' : ChatDb J} {session : Session}
    {m : Message J} (hsession : getSession db userId req.sessionId = some session)
    (hrecord : recordUserMessage db env userId session req = .ok (m, db'))
    (hcached : findAssistant db' req.clientMessageId = none) :
    (chat codec historyTurns agent env userId req db).response =
      .stream
        (streamTurn codec.dump (chatTurn userId session req) env.assistantMessageId
          (agent.run (agentInput historyTurns env userId req db'))
          (recordAssistantMessage db' env session)).emitted
        (streamTurn codec.dump (chatTurn userId session req) env.assistantMessageId
          (agent.run (agentInput historyTurns env userId req db'))
          (recordAssistantMessage db' env session)).raised := by
  simp only [chat, hsession, hrecord, hcached]
  split <;> rfl

end MeJournal
