import MeJournal.Chat.Endpoint
import MeJournal.Lib.Interleaving

/-!
# Interleaved chat and delete requests

A request is a process over the database; its moves are the transactions of the source, each
atomic at its commit (READ COMMITTED).  A chat request moves by `get_session`, the commit of
`record_user_message`, the reply lookup, the stream, and the commit of
`record_assistant_message`; `delete_session` by its `SELECT`, the `UPDATE` of the messages, which
sees the rows committed so far, and the commit, which makes both updates visible (the session row
is flushed only then).

* `chatMove_db` — a chat move commits at most one message, and never changes another.
* `moves_alone` — moved five times without interruption, a chat process does what `chat` does.
-/

namespace MeJournal

variable {M J : Type}

/-! ## Chat processes -/

/-- How far a chat request is. -/
inductive ChatPc (J : Type) where
  | start
  /-- `get_session` found the session. -/
  | haveSession (session : Session)
  /-- The user message is committed. -/
  | recorded (session : Session)
  /-- No cached reply was found. -/
  | noReply (session : Session)
  /-- The agent has run; the row is to be inserted. -/
  | streamed (session : Session) (row : AssistantRow J)
  | done
  deriving DecidableEq

structure ChatProc (M J : Type) where
  userId : UUID
  req : ChatRequest
  pc : ChatPc J
  emitted : List (Packet M)
  /-- The agent was invoked. -/
  invoked : Bool

def ChatProc.new (userId : UUID) (req : ChatRequest) : ChatProc M J :=
  ⟨userId, req, .start, [], false⟩

/-- What a move reads from outside. -/
structure MoveInput (M : Type) where
  env : ChatEnv
  agent : Agent M

/-- The next transaction of a chat request. -/
def ChatProc.move (codec : ToolCodec M J) (historyTurns : Nat) (input : MoveInput M)
    (p : ChatProc M J) (db : ChatDb J) : ChatProc M J × ChatDb J :=
  match p.pc with
  | .start =>
    match getSession db p.userId p.req.sessionId with
    | none => ({ p with pc := .done }, db)
    | some session => ({ p with pc := .haveSession session }, db)
  | .haveSession session =>
    match recordUserMessage db input.env p.userId session p.req with
    | .error _ => ({ p with pc := .done }, db)
    | .ok (_, db') => ({ p with pc := .recorded session }, db')
  | .recorded session =>
    match findAssistant db p.req.clientMessageId with
    | some cached => ({ p with pc := .done, emitted := (replayStream codec cached ()).emitted }, db)
    | none => ({ p with pc := .noReply session }, db)
  | .noReply session =>
    let run := input.agent.run (agentInput historyTurns input.env p.userId p.req db)
    match streamBody codec.dump (chatTurn p.userId session p.req) input.env.assistantMessageId
      run with
    | (emitted, none, _) => ({ p with pc := .done, emitted := emitted, invoked := true }, db)
    | (emitted, some row, _) =>
      ({ p with pc := .streamed session row, emitted := emitted, invoked := true }, db)
  | .streamed session row =>
    match recordAssistantMessage db input.env session row with
    | none => ({ p with pc := .done }, db)
    | some db' =>
      ({ p with pc := .done, emitted := p.emitted ++ [.finish "stop" row.id] }, db')
  | .done => (p, db)

/-! ## Delete processes -/

/-- How far a `delete_session` is. -/
inductive DeletePc where
  | start
  /-- The session exists and is live. -/
  | selected
  /-- The messages are updated, uncommitted. -/
  | cascaded (ids : List UUID) (now : Time)
  | done
  deriving DecidableEq

structure DeleteProc where
  userId : UUID
  sessionId : UUID
  pc : DeletePc

/-- The ids of the session's live messages. -/
def liveMessageIds (db : ChatDb J) (sessionId : UUID) : List UUID :=
  (db.messages.rows.filter fun m => m.sessionId = sessionId && m.deletedAt.isNone).map Message.id

/-- The two updates of `delete_session`, committed. -/
def commitDelete (db : ChatDb J) (sessionId : UUID) (ids : List UUID) (now : Time) : ChatDb J where
  sessions := db.sessions.mapRows
    (fun s => if s.id = sessionId then { s with deletedAt := some now } else s)
    (fun s => by split <;> rfl)
  messages := db.messages.softDelete ids now
  memories := db.memories

/-- The next statement of a `delete_session`. -/
def DeleteProc.move (now : Time) (p : DeleteProc) (db : ChatDb J) : DeleteProc × ChatDb J :=
  match p.pc with
  | .start =>
    match (db.sessions.find p.sessionId).filter fun s => s.userId = p.userId with
    | none => ({ p with pc := .done }, db)
    | some session =>
      if session.deletedAt.isSome then ({ p with pc := .done }, db)
      else ({ p with pc := .selected }, db)
  | .selected => ({ p with pc := .cascaded (liveMessageIds db p.sessionId) now }, db)
  | .cascaded ids now => ({ p with pc := .done }, commitDelete db p.sessionId ids now)
  | .done => (p, db)

/-! ## The server -/

inductive ServerProc (M J : Type) where
  | chat (p : ChatProc M J)
  | delete (p : DeleteProc)

def ServerProc.move (codec : ToolCodec M J) (historyTurns : Nat) (input : MoveInput M)
    (p : ServerProc M J) (db : ChatDb J) : ServerProc M J × ChatDb J :=
  match p with
  | .chat p => let r := p.move codec historyTurns input db; (.chat r.1, r.2)
  | .delete p => let r := p.move input.env.now db; (.delete r.1, r.2)

abbrev Server (M J : Type) := Interleaving.System (ChatDb J) (ServerProc M J)

/-- What happens at a server: a request comes in, or one makes its next move. -/
inductive ServerEvent (M : Type) where
  | postChat (userId : UUID) (req : ChatRequest)
  | deleteSession (userId sessionId : UUID)
  | move (i : Nat) (input : MoveInput M)

def ServerEvent.toEvent : ServerEvent M → Interleaving.Event (ServerProc M J) (MoveInput M)
  | .postChat userId req => .arrive (.chat (.new userId req))
  | .deleteSession userId sessionId => .arrive (.delete ⟨userId, sessionId, .start⟩)
  | .move i input => .move i input

def serverStep (codec : ToolCodec M J) (historyTurns : Nat) (s : Server M J) (e : ServerEvent M) :
    Server M J :=
  Interleaving.step (ServerProc.move codec historyTurns) s e.toEvent

/-- No requests yet. -/
def serverStart (db : ChatDb J) : Server M J := ⟨db, []⟩

/-! ## What a chat move does to the database -/

/-- The session into which the next move of a chat request commits a message, if it does. -/
def ChatProc.insertsInto (input : MoveInput M) (p : ChatProc M J) (db : ChatDb J) : Option UUID :=
  match p.pc with
  | .haveSession session =>
    if db.messages.table.has p.req.clientMessageId then none else some session.id
  | .streamed session row =>
    (recordAssistantMessage db input.env session row).map fun _ => row.sessionId
  | _ => none

/-- Every session row comes from one with the same id and the same `deleted_at`. -/
def SameDeleted (before after : Table Session.id) : Prop :=
  ∀ x ∈ after.rows, ∃ y ∈ before.rows, x.id = y.id ∧ x.deletedAt = y.deletedAt

theorem sameDeleted_refl (t : Table Session.id) : SameDeleted t t := fun x hx => ⟨x, hx, rfl, rfl⟩

theorem sameDeleted_touch (t : Table Session.id) (session : Session) (now : Time)
    (title : Option Text) : SameDeleted t (touchSession t session now title) := by
  intro x hx
  obtain ⟨y, hy, hid, _, hdel⟩ := touchSession_mem hx
  exact ⟨y, hy, hid, hdel⟩

/-- **What a chat move does to the database**: at most one live message more. -/
theorem chatMove_db (codec : ToolCodec M J) (historyTurns : Nat) (input : MoveInput M)
    (p : ChatProc M J) (db : ChatDb J) :
    SameDeleted db.sessions (p.move codec historyTurns input db).2.sessions ∧
      ((p.move codec historyTurns input db).2.messages.rows = db.messages.rows ∨
        ∃ m, p.insertsInto input db = some m.sessionId ∧
          (p.move codec historyTurns input db).2.messages.rows = db.messages.rows ++ [m]) := by
  have hsame : SameDeleted db.sessions db.sessions ∧ (db.messages.rows = db.messages.rows ∨
      ∃ m, p.insertsInto input db = some m.sessionId ∧
        db.messages.rows = db.messages.rows ++ [m]) := ⟨sameDeleted_refl _, Or.inl rfl⟩
  unfold ChatProc.move
  split
  · split <;> exact hsame
  · rename_i session hpc
    split
    · exact hsame
    · rename_i m db' hrecord
      rcases recordUserMessage_cases hrecord with ⟨_, _, rfl⟩ | ⟨_, hnew, hrows, title, hsess⟩
      · exact hsame
      · have hhas : db.messages.table.has p.req.clientMessageId = false :=
          Table.has_eq_false.2 hnew
        refine ⟨by rw [hsess]; exact sameDeleted_touch _ _ _ _, Or.inr ⟨_, ?_, hrows⟩⟩
        simp [ChatProc.insertsInto, hpc, hhas, userRow]
  · split <;> exact hsame
  · simp only
    split <;> exact hsame
  · rename_i session row hpc
    split
    · exact hsame
    · rename_i db' hrecord
      obtain ⟨_, _, _, _, hrows, hsess⟩ := recordAssistantMessage_eq_some hrecord
      refine ⟨by rw [hsess]; exact sameDeleted_touch _ _ _ _, Or.inr ⟨_, ?_, hrows⟩⟩
      simp [ChatProc.insertsInto, hpc, hrecord, assistantMessage]
  · exact hsame

/-! ## A request on its own -/

/-- `n` moves in a row. -/
def ChatProc.moves (codec : ToolCodec M J) (historyTurns : Nat) (input : MoveInput M) :
    Nat → ChatProc M J × ChatDb J → ChatProc M J × ChatDb J
  | 0, r => r
  | n + 1, r => ChatProc.moves codec historyTurns input n (r.1.move codec historyTurns input r.2)

/-- The packets of a response. -/
def ChatResponse.packets : ChatResponse M → List (Packet M)
  | .stream emitted _ => emitted
  | _ => []

theorem moves_succ (codec : ToolCodec M J) (historyTurns : Nat) (input : MoveInput M) (n : Nat)
    (p : ChatProc M J) (db : ChatDb J) :
    ChatProc.moves codec historyTurns input (n + 1) (p, db) =
      ChatProc.moves codec historyTurns input n (p.move codec historyTurns input db) := rfl

/-- A finished request stays as it is. -/
theorem moves_done (codec : ToolCodec M J) (historyTurns : Nat) (input : MoveInput M)
    {p : ChatProc M J} (h : p.pc = .done) (n : Nat) (db : ChatDb J) :
    ChatProc.moves codec historyTurns input n (p, db) = (p, db) := by
  induction n with
  | zero => rfl
  | succ n ih =>
    have hmove : p.move codec historyTurns input db = (p, db) := by simp only [ChatProc.move, h]
    rw [moves_succ, hmove, ih]

/-- **Uninterrupted, a chat process does what `chat` does.** -/
theorem moves_alone (codec : ToolCodec M J) (historyTurns : Nat) (input : MoveInput M)
    (userId : UUID) (req : ChatRequest) (db : ChatDb J) :
    ∃ p : ChatProc M J, p.pc = .done ∧
      p.emitted =
        (chat codec historyTurns input.agent input.env userId req db).response.packets ∧
      ChatProc.moves codec historyTurns input 5 (.new userId req, db) =
        (p, (chat codec historyTurns input.agent input.env userId req db).db) := by
  rw [moves_succ]
  simp only [ChatProc.new, ChatProc.move, chat]
  cases getSession db userId req.sessionId with
  | none => exact ⟨_, rfl, rfl, moves_done codec historyTurns input rfl 4 db⟩
  | some session =>
    simp only
    rw [moves_succ]
    simp only [ChatProc.move]
    cases recordUserMessage db input.env userId session req with
    | error e => exact ⟨_, rfl, rfl, moves_done codec historyTurns input rfl 3 db⟩
    | ok r =>
      obtain ⟨m, db'⟩ := r
      simp only
      rw [moves_succ]
      simp only [ChatProc.move]
      cases findAssistant db' req.clientMessageId with
      | some cached => exact ⟨_, rfl, rfl, moves_done codec historyTurns input rfl 2 db'⟩
      | none =>
        simp only [streamTurn]
        rw [moves_succ]
        simp only [ChatProc.move]
        have hid : ∀ row, (streamBody codec.dump (chatTurn userId session req)
            input.env.assistantMessageId
            (input.agent.run (agentInput historyTurns input.env userId req db'))).2.1 = some row →
            row.id = input.env.assistantMessageId := fun row h => (streamBody_row_id h).1
        generalize streamBody codec.dump (chatTurn userId session req)
          input.env.assistantMessageId
          (input.agent.run (agentInput historyTurns input.env userId req db')) = body
          at hid ⊢
        obtain ⟨emitted, row?, raised⟩ := body
        cases row? with
        | none => exact ⟨_, rfl, rfl, moves_done codec historyTurns input rfl 1 db'⟩
        | some row =>
          simp only
          rw [moves_succ]
          simp only [ChatProc.move, hid row rfl]
          cases recordAssistantMessage db' input.env session row with
          | none => exact ⟨_, rfl, rfl, rfl⟩
          | some db'' => exact ⟨_, rfl, rfl, rfl⟩

end MeJournal
