import MeJournal.Chat.Concurrent
import MeJournal.Mobile.ChatHistory
import MeJournal.Mobile.Sends

/-!
# From the server's rows to the phone

Requests of `POST /chat` of any users, interleaved on the server, and one phone: it reads the
streams of its own requests, one after the other, loads pages of one session and commits finished
turns to them.  No session is deleted.

* `told_streamBody` — a row that a turn inserts is what the packets before it fold to.
* `kept_move` — what a request has left in the table, wherever it stands.
* `handed_over` — a stream that was rendered before `finish` is handed over as it was told.
* `Orderly` — what the phone does in such a run, one turn of the session after the other.
* `phone_follows_server` — in these runs the phone shows rows of the server, newest first, with the
  contents and events that are stored there.
-/

namespace MeJournal

open scoped KeyOrder

namespace Delivery

variable {M J : Type}

/-! ## What a request leaves in the table -/

/-- The packets are `start` and what folds to the row. -/
def Told (dump : M → J) (packets : List (Packet M)) (row : AssistantRow J) : Prop :=
  ∃ sent, packets = .start row.id row.sessionId :: sent ∧
    row.events = (StreamState.foldAll dump sent).eventsList ∧
    row.content = (StreamState.foldAll dump sent).assistantContent

/-- The row of the request's user message. -/
def Asked (req : ChatRequest) (rows : List (Message J)) : Prop :=
  ∃ m ∈ rows, ChatHistory.messageRead m =
    ⟨req.clientMessageId, .user, req.message, none, none, some req.clientTz, m.createdAt⟩

/-- The row of the assistant's message. -/
def Answered (row : AssistantRow J) (rows : List (Message J)) : Prop :=
  ∃ m ∈ rows, ChatHistory.messageRead m =
    ⟨row.id, .assistant, row.content, row.events, some row.parentMessageId, none, m.createdAt⟩

/-- Both messages of the turn are stored, and its stream told the reply. -/
def Delivered (dump : M → J) (p : ChatProc M J) (rows : List (Message J)) : Prop :=
  Asked p.req rows ∧ ∃ told row, p.emitted = told ++ [.finish "stop" row.id] ∧
    Told dump told row ∧ row.parentMessageId = p.req.clientMessageId ∧ Answered row rows

/-- What a request has left in the table. -/
def Kept (dump : M → J) (p : ChatProc M J) (rows : List (Message J)) : Prop :=
  match p.pc with
  | .start | .haveSession _ => p.invoked = false
  | .recorded _ | .noReply _ => p.invoked = false ∧ Asked p.req rows
  | .streamed _ row =>
    Asked p.req rows ∧ Told dump p.emitted row ∧ row.parentMessageId = p.req.clientMessageId ∧
      ∀ q ∈ p.emitted, q.finishId? = none
  | .done =>
    p.invoked = true → (∃ q ∈ p.emitted, q.finishId? ≠ none) → Delivered dump p rows

theorem Asked.mono {req : ChatRequest} {rows rows' : List (Message J)} (h : Asked req rows)
    (hsub : rows ⊆ rows') : Asked req rows' := by
  obtain ⟨m, hm, hread⟩ := h
  exact ⟨m, hsub hm, hread⟩

theorem Answered.mono {row : AssistantRow J} {rows rows' : List (Message J)}
    (h : Answered row rows) (hsub : rows ⊆ rows') : Answered row rows' := by
  obtain ⟨m, hm, hread⟩ := h
  exact ⟨m, hsub hm, hread⟩

/-- More rows take nothing away. -/
theorem Kept.mono {dump : M → J} {p : ChatProc M J} {rows rows' : List (Message J)}
    (h : Kept dump p rows) (hsub : rows ⊆ rows') : Kept dump p rows' := by
  unfold Kept at h ⊢
  split
  · simpa only [*] using h
  · simpa only [*] using h
  · rename_i hpc
    simp only [hpc] at h
    exact ⟨h.1, h.2.mono hsub⟩
  · rename_i hpc
    simp only [hpc] at h
    exact ⟨h.1, h.2.mono hsub⟩
  · rename_i hpc
    simp only [hpc] at h
    exact ⟨h.1.mono hsub, h.2⟩
  · rename_i hpc
    simp only [hpc] at h
    intro hinvoked hfinish
    obtain ⟨hasked, told, row, hemitted, htold, hparent, hanswered⟩ := h hinvoked hfinish
    exact ⟨hasked.mono hsub, told, row, hemitted, htold, hparent, hanswered.mono hsub⟩

/-- The loop of the stream folds what it emits. -/
theorem acceptAll_state (dump : M → J) (t : TurnState J) (ps : List (Packet M)) :
    (t.acceptAll dump ps).2.state =
      (t.acceptAll dump ps).1.foldl (StreamState.fold dump) t.state := by
  induction ps generalizing t with
  | nil => rfl
  | cons p ps ih => exact ih (t.accept dump p).2

/-- **A row is told before it is inserted.** -/
theorem told_streamBody {dump : M → J} {turn : ChatTurn} {id : UUID} {run : AgentRun M}
    {emitted : List (Packet M)} {row : AssistantRow J} {raised : Option PyExc}
    (h : streamBody dump turn id run = (emitted, some row, raised)) :
    Told dump emitted row ∧ row.parentMessageId = turn.clientMessageId := by
  have hstate := acceptAll_state dump (TurnState.new : TurnState J) run.packets
  unfold streamBody at h
  simp only at h
  split at h
  · cases h
  split at h
  · cases h
    refine ⟨⟨_, rfl, ?_, ?_⟩, rfl⟩
    · rw [assistantRow, hstate]
      rfl
    · rw [assistantRow, hstate]
      rfl
  · cases h

/-- **What a move adds to the messages.** -/
theorem move_rows (codec : ToolCodec M J) (historyTurns : Nat) (input : MoveInput M)
    (p : ChatProc M J) (db : ChatDb J) :
    (p.move codec historyTurns input db).2.messages = db.messages ∨
      ∃ m, (p.move codec historyTurns input db).2.messages.rows = db.messages.rows ++ [m] ∧
        m.createdAt = input.env.dbNow := by
  unfold ChatProc.move
  split
  · split <;> exact Or.inl rfl
  · split
    · exact Or.inl rfl
    · rename_i hrecord
      rcases recordUserMessage_cases hrecord with ⟨_, _, rfl⟩ | ⟨_, _, hrows, _⟩
      · exact Or.inl rfl
      · exact Or.inr ⟨_, hrows, rfl⟩
  · split <;> exact Or.inl rfl
  · simp only
    split <;> exact Or.inl rfl
  · split
    · exact Or.inl rfl
    · rename_i hrecord
      exact Or.inr ⟨_, (recordAssistantMessage_eq_some hrecord).2.2.2.2.1, rfl⟩
  · exact Or.inl rfl

theorem move_rows_subset (codec : ToolCodec M J) (historyTurns : Nat) (input : MoveInput M)
    (p : ChatProc M J) (db : ChatDb J) :
    db.messages.rows ⊆ (p.move codec historyTurns input db).2.messages.rows := by
  rcases move_rows codec historyTurns input p db with heq | ⟨m, hrows, -⟩
  · rw [heq]
    exact List.Subset.refl _
  · rw [hrows]
    exact List.subset_append_left _ _

/-- The id of the user message is new when it is recorded. -/
def IdIsNew (p : ChatProc M J) (rows : List (Message J)) : Prop :=
  match p.pc with
  | .haveSession _ => ∀ m ∈ rows, m.id ≠ p.req.clientMessageId
  | _ => True

instance (p : ChatProc M J) (rows : List (Message J)) : Decidable (IdIsNew p rows) :=
  match h : p.pc with
  | .haveSession _ =>
    decidable_of_iff (∀ m ∈ rows, m.id ≠ p.req.clientMessageId) (by simp only [IdIsNew, h])
  | .start | .recorded _ | .noReply _ | .streamed _ _ | .done =>
    isTrue (by simp only [IdIsNew, h])

/-- **One move of the request itself.** -/
theorem kept_move (codec : ToolCodec M J) (historyTurns : Nat) (input : MoveInput M)
    {p : ChatProc M J} {db : ChatDb J} (h : Kept codec.dump p db.messages.rows)
    (hnew : IdIsNew p db.messages.rows) :
    Kept codec.dump (p.move codec historyTurns input db).1
      (p.move codec historyTurns input db).2.messages.rows := by
  unfold ChatProc.move
  split
  · rename_i hpc
    simp only [Kept, hpc] at h
    split
    · simp [Kept, h]
    · simpa [Kept] using h
  · rename_i session hpc
    simp only [Kept, hpc] at h
    split
    · simp [Kept, h]
    · rename_i m db' hrecord
      rcases recordUserMessage_cases hrecord with ⟨hm, hid, -⟩ | ⟨-, -, hrows, -⟩
      · simp only [IdIsNew, hpc] at hnew
        exact absurd hid (hnew m hm)
      · refine ⟨h, userRow input.env p.userId session p.req, ?_, rfl⟩
        rw [hrows]
        simp
  · rename_i session hpc
    simp only [Kept, hpc] at h
    split
    · simp [Kept, h.1]
    · simpa [Kept] using h
  · rename_i session hpc
    simp only [Kept, hpc] at h
    have hfinish := finish_not_mem_streamBody codec.dump (chatTurn p.userId session p.req)
      input.env.assistantMessageId
      (input.agent.packets (agentInput historyTurns input.env p.userId p.req db))
    simp only
    split
    · rename_i hbody
      rw [hbody] at hfinish
      rintro - ⟨q, hq, hid⟩
      exact absurd (hfinish q hq) hid
    · rename_i hbody
      rw [hbody] at hfinish
      obtain ⟨htold, hparent⟩ := told_streamBody hbody
      exact ⟨h.2, htold, hparent, hfinish⟩
  · rename_i session row hpc
    simp only [Kept, hpc] at h
    obtain ⟨hasked, htold, hparent, hfinish⟩ := h
    split
    · rintro - ⟨q, hq, hid⟩
      exact absurd (hfinish q hq) hid
    · rename_i db' hrecord
      obtain ⟨-, -, -, -, hrows, -⟩ := recordAssistantMessage_eq_some hrecord
      intro _ _
      rw [hrows]
      exact ⟨hasked.mono (List.subset_append_left _ _), p.emitted, row, rfl, htold, hparent,
        assistantMessage input.env row, by simp, rfl⟩
  · exact h

/-! ## What the phone hands over -/

/-- The last flush before the chunk with `finish` had the events of the whole turn. -/
def Rendered {wire : JsonCodec M J} (w : WireStream wire) (m : SentMessage) (ticks : List Tick) :
    Prop :=
  ∃ n ∈ w.lastFlush 0 none ticks,
    (foldPackets wire.dump m.started (w.sent.take n)).activeTurn.map serverEventsFromTurn =
      (wholeTurn w m).map serverEventsFromTurn

/-- No packet begins a turn. -/
theorem packetAction_startsTurn (dump : M → J) {p : Packet M} {action : ChatAction J}
    (h : p.action dump = some action) : action.startsTurn = false := by
  unfold Packet.action at h
  split at h <;> cases h <;> rfl

/-- The turn of the stream is the message's. -/
theorem foldPackets_message (dump : M → J) (m : SentMessage) (ps : List (Packet M)) :
    ∀ turn, (foldPackets dump m.started ps).activeTurn = some turn → turn.message = m := by
  refine foldl_reducer_message (fun a ha => ?_) fun turn hturn => ?_
  · obtain ⟨p, -, hp⟩ := List.mem_filterMap.1 ha
    exact packetAction_startsTurn dump hp
  · rw [← Option.some.inj hturn]
    rfl

/-- The events of the whole turn are those that the packets fold to on the server. -/
theorem wholeTurn_events {wire : JsonCodec M J} (w : WireStream wire) (m : SentMessage) :
    (wholeTurn w m).map serverEventsFromTurn =
      some (StreamState.foldAll wire.dump w.packets).sortedEvents := by
  let turn : ActiveTurn J :=
    { startedTurn m.clientMessageId m.userText m.startedAt with
      assistantMessageId := some w.assistantMessageId }
  have hevents : turn.events = (StreamState.new : StreamState J).events := rfl
  obtain ⟨turn', hturn', heq, hkeyed⟩ :=
    foldPackets_foldAll wire.dump hevents stepKeyed_new w.packets_streamed
  have hwhole : wholeTurn w m = some turn' := by
    rw [wholeTurn, WireStream.opening, openingPackets, ← List.singleton_append,
      foldPackets_append]
    exact congrArg ChatState.activeTurn hturn'
  rw [hwhole, Option.map_some, serverEventsFromTurn_eq hkeyed, heq]
  rfl

theorem eventsOrNull_sortedEvents (st : StreamState J) :
    eventsOrNull st.sortedEvents = st.eventsList := by
  have hlength : st.sortedEvents = [] ↔ st.events.rows.isEmpty = true := by
    rw [List.isEmpty_iff]
    constructor
    · intro hnil
      rw [List.eq_nil_iff_forall_not_mem]
      rintro ⟨k, e⟩ hmem
      have hevent : e ∈ st.sortedEvents := List.mem_filterMap.2 ⟨k,
        (List.mem_insertionSort _).2 (List.mem_map_of_mem hmem), Dict.get?_eq_some.2 hmem⟩
      rw [hnil] at hevent
      cases hevent
    · intro hnil
      simp [StreamState.sortedEvents, Dict.keys, hnil]
  unfold eventsOrNull StreamState.eventsList
  by_cases hempty : st.events.rows.isEmpty = true
  · rw [if_pos hempty, hlength.2 hempty]
    rfl
  · rw [if_neg hempty, if_pos (List.length_pos_iff.2 fun hnil => hempty (hlength.1 hnil))]

/-- **A stream that was rendered is handed over as it was told.** -/
theorem handed_over {wire : JsonCodec M J} {w : WireStream wire}
    (hjson : ∀ p ∈ w.sent, wire.Reads p) (tz : Text) (m : SentMessage) (h : StreamHook J)
    {ticks : List Tick} (hcut : ticks.flatMap Tick.text = w.text) (hrendered : Rendered w m ticks) :
    ∃ user assistant, (Runs.run (StreamHook.tick wire tz) (h.sendMessage m) ticks).completed =
        h.completed ++ [(user, assistant)] ∧
      user = ⟨m.clientMessageId, .user, m.userText, none, none, some tz, user.createdAt⟩ ∧
      assistant = ⟨w.assistantMessageId, .assistant,
        (StreamState.foldAll wire.dump w.packets).assistantContent,
        (StreamState.foldAll wire.dump w.packets).eventsList, some m.clientMessageId, none,
        assistant.createdAt⟩ := by
  have hstart : w.received 0 < w.sent.length := by
    rw [w.received_zero hjson, w.sent_length]
    omega
  have hstreaming : Streaming w m h (h.sendMessage m) 0 none := streaming_sendMessage hjson h
  obtain ⟨now, hcompleted⟩ := hstreaming.run tz hjson hstart hcut
  obtain ⟨n, hn, hseen⟩ := hrendered
  rw [wholeTurn_events] at hseen
  obtain ⟨turn, hturn, hevents⟩ := Option.map_eq_some_iff.1 hseen
  obtain rfl := foldPackets_message wire.dump m (w.sent.take n) turn hturn
  rw [Option.mem_def.1 hn, seenTurn, hturn, Option.map_some, Option.toList_some] at hcompleted
  refine ⟨_, _, hcompleted, rfl, ?_⟩
  rw [← eventsOrNull_sortedEvents, ← hevents]
  simp only [hevents]
  rfl

/-! ## The server and the phone -/

/-- The server with its requests, and the phone: its hook and the cached pages of one session. -/
structure World (M J : Type) where
  server : Interleaving.System (ChatDb J) (ChatProc M J)
  hook : StreamHook J
  data : ChatHistory.HistoryData J
  /-- The session's messages that came since the last load, less those that a turn committed. -/
  unseen : List UUID

/-- The part that the cache is about. -/
def World.history (w : World M J) : ChatHistory.World J :=
  ⟨w.server.shared.messages, w.data, w.unseen⟩

inductive Event (wire : JsonCodec M J) where
  | post (userId : UUID) (req : ChatRequest)
  | move (i : Nat) (input : MoveInput M)
  | load
  | fetchOlder
  /-- The phone has sent the request `i`, and reads its stream to the end. -/
  | read (i : Nat) (stream : WireStream wire) (startedAt : Time) (ticks : List Tick)

/-- What the request's send is to the hook. -/
def sentMessage (req : ChatRequest) (startedAt : Time) : SentMessage :=
  ⟨req.clientMessageId, req.message, startedAt⟩

section Step

variable (cp : CursorPlatform) (sessionId : UUID) (codec : ToolCodec M J) (historyTurns : Nat)
  {wire : JsonCodec M J}

/-- Nothing is loaded. -/
def World.start (db : ChatDb J) (hook : StreamHook J) : World M J :=
  let history := ChatHistory.World.start sessionId db.messages
  ⟨⟨db, []⟩, hook, history.data, history.unseen⟩

/-- The cache after an event of its own. -/
def World.atHome (w : World M J) (e : ChatHistory.Event J) : World M J :=
  let history := ChatHistory.step cp sessionId w.history e
  { w with data := history.data, unseen := history.unseen }

def step (w : World M J) : Event wire → World M J
  | .post userId req =>
    { w with
      server := Interleaving.step (ChatProc.move codec historyTurns) w.server
        (.arrive (.new userId req)) }
  | .move i input =>
    let server := Interleaving.step (ChatProc.move codec historyTurns) w.server (.move i input)
    let added := server.shared.messages.rows.drop w.server.shared.messages.rows.length
    { w with
      server := server
      unseen := (added.filter (inSession sessionId)).map Message.id ++ w.unseen }
  | .load => w.atHome cp sessionId .load
  | .fetchOlder => w.atHome cp sessionId .fetchOlder
  | .read i _ startedAt ticks =>
    match w.server.procs[i]? with
    | none => w
    | some p =>
      let hook := Runs.run (StreamHook.tick wire p.req.clientTz)
        (w.hook.sendMessage (sentMessage p.req startedAt)) ticks
      let handed := hook.completed.drop w.hook.completed.length
      handed.foldl (fun w pair => w.atHome cp sessionId (.commitTurn pair.1 pair.2))
        { w with hook := hook }

/-- A user message comes with a new id.  The phone reads the whole text of a finished stream, and
has rendered it before `finish`; the turn's messages are then the session's newest. -/
def Orderly (w : World M J) : Event wire → Prop
  | .move i input => inDatetimeRange input.env.dbNow ∧
      ∀ p ∈ w.server.procs[i]?, IdIsNew p w.server.shared.messages.rows
  | .read i stream startedAt ticks => ∃ p, w.server.procs[i]? = some p ∧
      (p.pc = .done ∧ p.invoked = true ∧ p.emitted = stream.sent) ∧
      (∀ q ∈ stream.sent, wire.Reads q) ∧ ticks.flatMap Tick.text = stream.text ∧
      Rendered stream (sentMessage p.req startedAt) ticks ∧
      ∃ user reply, ChatHistory.Newest sessionId w.server.shared.messages user reply ∧
        user.id = p.req.clientMessageId ∧ reply.id = stream.assistantMessageId
  | _ => True

end Step

/-- A shown message has all of the stored one but the time. -/
def Shown (shown : ServerMessage J) (m : Message J) : Prop :=
  { shown with createdAt := m.createdAt } = ChatHistory.messageRead m

theorem shown_messageRead (m : Message J) : Shown (ChatHistory.messageRead m) m := rfl

theorem Shown.id_eq {shown : ServerMessage J} {m : Message J} (h : Shown shown m) :
    shown.id = m.id :=
  congrArg ServerMessage.id h

/-! ## The invariant -/

/-- The cache is coherent, and every request has left what it should. -/
structure Inv (sessionId : UUID) (dump : M → J) (w : World M J) : Prop where
  coherent : ∃ pages bound, ChatHistory.Coherent sessionId Shown w.history pages bound
  kept : ∀ p ∈ w.server.procs, Kept dump p w.server.shared.messages.rows

section Invariant

variable {cp : CursorPlatform} {sessionId : UUID} {codec : ToolCodec M J} {historyTurns : Nat}
  {wire : JsonCodec M J} {w : World M J}

theorem start_history (db : ChatDb J) (hook : StreamHook J) :
    (World.start sessionId db hook : World M J).history =
      ChatHistory.World.start sessionId db.messages := rfl

theorem inv_start {dump : M → J} {db : ChatDb J} (htimely : db.messages.Timely)
    (hook : StreamHook J) : Inv sessionId dump (World.start sessionId db hook) where
  coherent := by
    rw [start_history]
    exact ⟨_, _, ChatHistory.coherent_start htimely⟩
  kept p hp := by cases hp

/-- The pair of a stream is that of the turn's rows. -/
theorem shown_pair {stream : WireStream wire} {p : ChatProc M J} {table : Messages J}
    (hdelivered : Delivered wire.dump p table.rows) (hemitted : p.emitted = stream.sent)
    {user reply : Message J} (huser : user ∈ table.rows) (hreply : reply ∈ table.rows)
    (huserId : user.id = p.req.clientMessageId) (hreplyId : reply.id = stream.assistantMessageId)
    {shownUser shownReply : ServerMessage J} (hshownUser : shownUser =
      ⟨p.req.clientMessageId, .user, p.req.message, none, none, some p.req.clientTz,
        shownUser.createdAt⟩)
    (hshownReply : shownReply = ⟨stream.assistantMessageId, .assistant,
      (StreamState.foldAll wire.dump stream.packets).assistantContent,
      (StreamState.foldAll wire.dump stream.packets).eventsList, some p.req.clientMessageId, none,
      shownReply.createdAt⟩) : Shown shownUser user ∧ Shown shownReply reply := by
  obtain ⟨⟨m, hm, hread⟩, told, row, hfinished, ⟨sent, rfl, hevents, hcontent⟩, hparent, n, hn,
    hanswer⟩ := hdelivered
  rw [hfinished, WireStream.sent, WireStream.opening, openingPackets, WireStream.finish] at hemitted
  obtain ⟨hopening, hlast⟩ := List.append_inj' hemitted rfl
  obtain ⟨hstart, rfl⟩ := List.cons.inj hopening
  obtain ⟨hid, -⟩ := Packet.start.inj hstart
  have hsame : m = user := table.table.eq_of_key_eq hm huser
    ((congrArg ServerMessage.id hread).trans huserId.symm)
  have hsame' : n = reply := table.table.eq_of_key_eq hn hreply
    ((congrArg ServerMessage.id hanswer).trans (hid.trans hreplyId.symm))
  subst hsame hsame'
  constructor
  · rw [Shown, hread, hshownUser]
  · rw [Shown, hanswer, hshownReply, hevents, hcontent, hparent, hid]

/-- Only an insert changes the table. -/
theorem step_table (w : ChatHistory.World J) {e : ChatHistory.Event J}
    (he : ∀ m, e ≠ .insert m) : (ChatHistory.step cp sessionId w e).table = w.table := by
  cases e with
  | insert m => exact absurd rfl (he m)
  | load =>
    simp only [ChatHistory.step]
    split <;> rfl
  | fetchOlder =>
    simp only [ChatHistory.step]
    split
    · rfl
    · split <;> rfl
  | commitTurn user assistant => rfl

/-- **An event of the cache.** -/
theorem Inv.atHome (h : Inv sessionId codec.dump w) {e : ChatHistory.Event J}
    (he : ∀ m, e ≠ .insert m) (horderly : ChatHistory.Orderly sessionId Shown w.history e) :
    Inv sessionId codec.dump (w.atHome cp sessionId e) where
  coherent := by
    obtain ⟨pages, bound, hcoherent⟩ := h.coherent
    have hstep : ∃ pages bound, ChatHistory.Coherent sessionId Shown
        (ChatHistory.step cp sessionId w.history e) pages bound :=
      ChatHistory.coherent_step shown_messageRead (fun _ _ => Shown.id_eq) hcoherent horderly
    have hhistory : (w.atHome cp sessionId e).history =
        ChatHistory.step cp sessionId w.history e := by
      have htable : (ChatHistory.step cp sessionId w.history e).table = w.history.table :=
        step_table w.history he
      cases hnext : ChatHistory.step cp sessionId w.history e
      rw [hnext] at htable
      simp only at htable
      rw [World.history, World.atHome, hnext, htable]
      rfl
    rwa [hhistory]
  kept := h.kept

theorem Inv.post (h : Inv sessionId codec.dump w) (userId : UUID) (req : ChatRequest) :
    Inv sessionId codec.dump
      (step cp sessionId codec historyTurns w (.post userId req : Event wire)) where
  coherent := h.coherent
  kept p hp := by
    rcases List.mem_append.1 hp with hp | hp
    · exact h.kept p hp
    · rw [List.mem_singleton.1 hp]
      rfl

/-- **A request moves.** -/
theorem Inv.move (h : Inv sessionId codec.dump w) {i : Nat} {input : MoveInput M}
    (htime : inDatetimeRange input.env.dbNow)
    (hnew : ∀ p ∈ w.server.procs[i]?, IdIsNew p w.server.shared.messages.rows) :
    Inv sessionId codec.dump
      (step cp sessionId codec historyTurns w (.move i input : Event wire)) := by
  cases hp : w.server.procs[i]? with
  | none =>
    have hstep : step cp sessionId codec historyTurns w (.move i input : Event wire) = w := by
      simp [step, Interleaving.step_move_none hp]
    rwa [hstep]
  | some p =>
    have hrows := move_rows codec historyTurns input p w.server.shared
    have hsub := move_rows_subset codec historyTurns input p w.server.shared
    have hmem : p ∈ w.server.procs := List.mem_of_getElem? hp
    have hkept := kept_move codec historyTurns input (h.kept p hmem) (hnew p hp)
    simp only [step, Interleaving.step_move hp]
    refine ⟨?_, fun q hq => ?_⟩
    · obtain ⟨pages, bound, hcoherent⟩ := h.coherent
      rcases hrows with heq | ⟨m, heq, htimeOf⟩
      · refine ⟨pages, bound, ?_⟩
        simpa [World.history, heq] using hcoherent
      · refine ⟨pages, bound, ?_⟩
        have hinsert := hcoherent.insert heq (htimeOf ▸ htime)
        have hadded : (((p.move codec historyTurns input w.server.shared).2.messages.rows.drop
            w.server.shared.messages.rows.length).filter (inSession sessionId)).map Message.id ++
              w.unseen = if inSession sessionId m then m.id :: w.unseen else w.unseen := by
          rw [heq, List.drop_left]
          cases hin : inSession sessionId m <;> simp [hin]
        simpa only [World.history, hadded] using hinsert
    · rcases List.mem_or_eq_of_mem_set hq with hq | rfl
      · exact (h.kept q hq).mono hsub
      · exact hkept

/-- **The phone reads a stream.** -/
theorem Inv.read (hdump : wire.dump = codec.dump) (h : Inv sessionId codec.dump w) {i : Nat}
    {stream : WireStream wire} {startedAt : Time} {ticks : List Tick}
    (horderly : Orderly sessionId w (.read i stream startedAt ticks)) :
    Inv sessionId codec.dump
      (step cp sessionId codec historyTurns w (.read i stream startedAt ticks)) := by
  obtain ⟨p, hp, ⟨hpc, hinvoked, hemitted⟩, hjson, hcut, hrendered, user, reply, hnewest, huserId,
    hreplyId⟩ := horderly
  obtain ⟨shownUser, shownReply, hcompleted, hshownUser, hshownReply⟩ :=
    handed_over hjson p.req.clientTz (sentMessage p.req startedAt) w.hook hcut hrendered
  have hkept := h.kept p (List.mem_of_getElem? hp)
  simp only [Kept, hpc, ← hdump] at hkept
  have hdelivered := hkept hinvoked ⟨stream.finish, by
    rw [hemitted]
    exact List.mem_append_right _ (List.mem_singleton_self _), nofun⟩
  obtain ⟨huser, hreply⟩ := shown_pair hdelivered hemitted hnewest.user_mem.1 hnewest.reply_mem.1
    huserId hreplyId hshownUser hshownReply
  simp only [step, hp, hcompleted, List.drop_left, List.foldl_cons, List.foldl_nil]
  have hcommit : ChatHistory.Orderly sessionId Shown w.history
      (.commitTurn shownUser shownReply) := ⟨user, reply, hnewest, huser, hreply⟩
  have hhook : ∀ hook : StreamHook J, Inv sessionId codec.dump { w with hook := hook } :=
    fun _ => ⟨h.coherent, h.kept⟩
  refine (hhook _).atHome (fun m => ?_) hcommit
  exact nofun

/-- **One event.** -/
theorem inv_step (hdump : wire.dump = codec.dump) (h : Inv sessionId codec.dump w) {e : Event wire}
    (he : Orderly sessionId w e) :
    Inv sessionId codec.dump (step cp sessionId codec historyTurns w e) := by
  cases e with
  | post userId req => exact h.post userId req
  | move i input => exact h.move he.1 he.2
  | load => exact h.atHome (fun _ hinsert => by cases hinsert) trivial
  | fetchOlder => exact h.atHome (fun _ hinsert => by cases hinsert) trivial
  | read i stream startedAt ticks => exact h.read hdump he

end Invariant

def twoDeltaAgent : Agent Unit where
  run := fun _ => ⟨[.textDelta none ['a'], .textDelta none ['b']], none⟩
  packets := by simp [Packet.isAgentPacket, Packet.isContent, Packet.delta?]

def moveAt (dbNow : Time) : MoveInput Unit := ⟨⟨dbNow, dbNow, [], 1⟩, twoDeltaAgent⟩

/-- A send whose page is loaded while the agent runs, and whose stream is read at the end. -/
def oneSend : List (Event sampleCodec) :=
  [.post 9 (sampleRequest 2 3 "ola".toList (by decide)), .move 0 (moveAt 4), .move 0 (moveAt 5),
    .load, .move 0 (moveAt 6), .move 0 (moveAt 6), .move 0 (moveAt 7),
    .read 0 twoDeltas 0 freshTicks]

def oneSession : ChatDb Unit := ⟨sampleSessions 2 9, Messages.empty, Table.empty⟩

end Delivery

end MeJournal
