import MeJournal.Mobile.Reducer
import MeJournal.Lib.Runs

/-!
# The stream hook of the mobile client

`mobile/lib/chat/use-chat-stream.ts`, and the read loop of `mobile/lib/api/chat-stream.ts`.
`dispatch` queues an action; a flush renders (it reduces the queue) and runs the effects, which
set `activeTurnRef`.  Flushes run between two reads of the network, never inside one.

* `useChatStream_finish` — the assistant message that `onFinish` hands over is the one of the
  whole turn exactly when the last flush before the chunk that completes `finish` already had all
  of the turn's events.
* `useChatStream_finish_stale` — two deltas, of which the second comes with `finish`: the message
  has the first one only.
-/

namespace MeJournal

variable {M J : Type}

/-! ## The hook -/

/-- `ServerMessage`. -/
structure ServerMessage (J : Type) where
  id : UUID
  role : Role
  content : Text
  events : Option (List (Event J))
  parentMessageId : Option UUID
  clientTz : Option Text
  createdAt : Time
  deriving DecidableEq

/-- The hook, and the leftover of the stream it reads. -/
structure StreamHook (J : Type) where
  /-- The rendered state. -/
  state : ChatState J
  /-- Dispatched, not reduced yet. -/
  queue : List (ChatAction J)
  activeTurnRef : Option (ActiveTurn J)
  leftover : Text
  /-- The calls of `onTurnComplete`. -/
  completed : List (ServerMessage J × ServerMessage J)

/-- The user's message, with the id and the time that `sendMessage` gives it. -/
structure SentMessage where
  clientMessageId : UUID
  userText : Text
  startedAt : Time

/-- The handlers' `tool`, which must not be empty. -/
def Payload.tool (p : Payload J) : Option String :=
  (toolNameFromType p.type).filter fun tool => tool ≠ ""

/-- The action a handler dispatches.  The fields are cast in the source; a payload without one is
none that the server sends. -/
def Handler.action (p : Payload J) : Handler → Option (ChatAction J)
  | .onStart => do
    let id ← p.assistantMessageId
    return .packetStart id
  | .onTextDelta => do
    let step ← p.step
    let delta ← p.delta
    return .packetTextDelta step delta
  | .onToolStart => do
    let tool ← p.tool
    let step ← p.step
    let id ← p.toolCallId
    return .packetToolStart step id tool
  | .onToolCall => do
    let tool ← p.tool
    let step ← p.step
    let id ← p.toolCallId
    let arguments ← p.arguments
    return .packetToolCall step id tool arguments
  | .onToolEnd => do
    let tool ← p.tool
    let step ← p.step
    let id ← p.toolCallId
    let status ← p.status
    return .packetToolEnd step id tool status p.result p.error
  | .onError => do
    let code ← p.code
    let message ← p.message
    return .packetError code message
  | .onFinish => none

/-- The `content` of the assistant message. -/
def contentOf (events : List (Event J)) : Text :=
  (events.filterMap Event.text?).flatMap TextEvent.content

/-- The `events` of the assistant message. -/
def eventsOrNull (events : List (Event J)) : Option (List (Event J)) :=
  if events.length > 0 then some events else none

/-- The user and the assistant message of a finished turn. -/
def finishedPair (tz : Text) (finishedAt : Time) (assistantMessageId : UUID) (turn : ActiveTurn J) :
    ServerMessage J × ServerMessage J :=
  let events := serverEventsFromTurn turn
  ({ id := turn.clientMessageId
     role := .user
     content := turn.userText
     events := none
     parentMessageId := none
     clientTz := some tz
     createdAt := turn.startedAt },
   { id := assistantMessageId
     role := .assistant
     content := contentOf events
     events := eventsOrNull events
     parentMessageId := some turn.clientMessageId
     clientTz := none
     createdAt := finishedAt })

namespace StreamHook

def dispatch (h : StreamHook J) (action : ChatAction J) : StreamHook J :=
  { h with queue := h.queue ++ [action] }

/-- Render, and run the effects. -/
def flush (h : StreamHook J) : StreamHook J :=
  let state := h.queue.foldl reducer h.state
  { h with state := state, queue := [], activeTurnRef := state.activeTurn }

/-- `sendMessage`, up to the first read of the stream. -/
def sendMessage (h : StreamHook J) (m : SentMessage) : StreamHook J :=
  { h.dispatch (.turnStart m.clientMessageId m.userText m.startedAt) with leftover := [] }

/-- `handlers.onFinish`. -/
def onFinish (tz : Text) (now : Time) (h : StreamHook J) (p : Payload J) : StreamHook J :=
  match h.activeTurnRef, p.assistantMessageId with
  | some turn, some id =>
    { h with completed := h.completed ++ [finishedPair tz now id turn] }.dispatch .turnClear
  | _, _ => h

def handle (tz : Text) (now : Time) (h : StreamHook J) (handler : Handler) (p : Payload J) :
    StreamHook J :=
  if handler = .onFinish then h.onFinish tz now p
  else
    match handler.action p with
    | none => h
    | some action => h.dispatch action

/-- One event of the loop in `streamChat`. -/
def route (codec : JsonCodec M J) (tz : Text) (now : Time) (h : StreamHook J) (event : SseEvent) :
    StreamHook J :=
  match routePacket codec.parse event with
  | none => h
  | some (handler, payload) => h.handle tz now handler payload

/-- One read of the loop in `streamChat`. -/
def receive (codec : JsonCodec M J) (tz : Text) (now : Time) (h : StreamHook J) (text : Text) :
    StreamHook J :=
  let (events, leftover) := splitSseBlocks text h.leftover
  events.foldl (route codec tz now) { h with leftover := leftover }

end StreamHook

/-- What happens next: a chunk is read, or React flushes. -/
inductive Tick where
  | chunk (text : Text) (now : Time)
  | flush
  deriving DecidableEq

/-- The text read. -/
def Tick.text : Tick → Text
  | .chunk text _ => text
  | .flush => []

def StreamHook.tick (codec : JsonCodec M J) (tz : Text) (h : StreamHook J) : Tick → StreamHook J
  | .chunk text now => h.receive codec tz now text
  | .flush => h.flush

/-! ## One stream -/

/-- `start` and the packets of the turn. -/
def openingPackets (assistantMessageId sessionId : UUID) (packets : List (Packet M)) :
    List (Packet M) :=
  .start assistantMessageId sessionId :: packets

/-- What the server sends for one turn, with its keep-alive comments. -/
structure WireStream (codec : JsonCodec M J) where
  assistantMessageId : UUID
  sessionId : UUID
  reason : String
  /-- The packets between `start` and `finish`. -/
  packets : List (Packet M)
  frames : List SseFrame
  packets_streamed : ∀ p ∈ packets, p.isStreamed = true
  frames_events : frames.filterMap SseFrame.event? =
    (openingPackets assistantMessageId sessionId packets ++
      [Packet.finish reason assistantMessageId]).map (sse codec)
  comments : ∀ t, .comment t ∈ frames → OneLine t

namespace WireStream

variable {codec : JsonCodec M J}

def opening (w : WireStream codec) : List (Packet M) :=
  openingPackets w.assistantMessageId w.sessionId w.packets

def finish (w : WireStream codec) : Packet M := .finish w.reason w.assistantMessageId

def sent (w : WireStream codec) : List (Packet M) := w.opening ++ [w.finish]

def text (w : WireStream codec) : Text := wireText w.frames

/-- How many packets have come in with the first `n` characters. -/
def received (w : WireStream codec) (n : Nat) : Nat :=
  ((framesWithin n w.frames).filterMap SseFrame.event?).length

/-- How many packets had come in at the last flush before the chunk that completes `finish`;
`n` characters have been read, and `seen` packets had come in at the last flush so far. -/
def lastFlush (w : WireStream codec) : Nat → Option Nat → List Tick → Option Nat
  | _, seen, [] => seen
  | n, _, .flush :: ticks => w.lastFlush n (some (w.received n)) ticks
  | n, seen, .chunk text _ :: ticks =>
    if w.received (n + text.length) = w.sent.length then seen
    else w.lastFlush (n + text.length) seen ticks

end WireStream

/-- The state right after `turn/start`. -/
def SentMessage.started (m : SentMessage) : ChatState J :=
  ⟨some (startedTurn m.clientMessageId m.userText m.startedAt)⟩

/-- The turn in the ref after a flush that had `seen` packets; `prev` before any flush. -/
def seenTurn {codec : JsonCodec M J} (w : WireStream codec) (m : SentMessage)
    (prev : Option (ActiveTurn J)) : Option Nat → Option (ActiveTurn J)
  | none => prev
  | some seen => (foldPackets codec.dump m.started (w.sent.take seen)).activeTurn

/-- The turn of all packets before `finish`. -/
def wholeTurn {codec : JsonCodec M J} (w : WireStream codec) (m : SentMessage) :
    Option (ActiveTurn J) :=
  (foldPackets codec.dump m.started w.opening).activeTurn

/-- Between the hooks one pair was handed over, and its assistant message is that of `turn`. -/
def HandsOver (h h' : StreamHook J) (turn : Option (ActiveTurn J)) : Prop :=
  ∃ user assistant, h'.completed = h.completed ++ [(user, assistant)] ∧
    turn.map (fun turn =>
      (eventsOrNull (serverEventsFromTurn turn), contentOf (serverEventsFromTurn turn))) =
      some (assistant.events, assistant.content)

/-! ## Handlers -/

theorem action_payload (dump : M → J) {p : Packet M} (h : p.isSent = true) :
    p.handler.action (p.payload dump) = p.action dump := by
  have htool : ∀ name, p.toolName? = some name → (p.payload dump).tool = some name := by
    intro name hname
    have htype : (p.payload dump).type = p.type := by cases p <;> rfl
    rw [Payload.tool, htype, toolNameFromType_type h hname]
    have hnonempty : ∀ name ∈ toolClassByName, name ≠ "" := by decide
    rw [Option.filter_some, if_pos (decide_eq_true (hnonempty name (toolName_of_isSent h hname)))]
  cases p with
  | start => rfl
  | textDelta step delta => cases step <;> rfl
  | toolStart step id name =>
    simp only [Packet.handler, Handler.action, htool name rfl]
    cases step <;> rfl
  | toolCall step id name arguments =>
    simp only [Packet.handler, Handler.action, htool name rfl]
    cases step <;> rfl
  | toolEnd step id name status result err =>
    simp only [Packet.handler, Handler.action, htool name rfl]
    cases step <;> rfl
  | error => rfl
  | finish => rfl

namespace StreamHook

variable {codec : JsonCodec M J} (tz : Text) (now : Time)

theorem route_sse {p : Packet M} (h : p.isSent = true) (hjson : codec.Reads p)
    (hook : StreamHook J) :
    hook.route codec tz now (sse codec p) =
      hook.handle tz now p.handler (p.payload codec.dump) := by
  rw [route, routePacket_sse h hjson.parse]

/-- A packet other than `finish` queues its action. -/
theorem route_opening {p : Packet M} (h : p.isSent = true) (hjson : codec.Reads p)
    (hfinish : p.handler ≠ .onFinish) (hook : StreamHook J) :
    hook.route codec tz now (sse codec p) =
      { hook with queue := hook.queue ++ (p.action codec.dump).toList } := by
  rw [route_sse tz now h hjson, handle, if_neg hfinish, action_payload codec.dump h]
  cases p.action codec.dump with
  | none => simp
  | some action => rfl

theorem route_all {ps : List (Packet M)} (hsent : ∀ p ∈ ps, p.isSent = true)
    (hjson : ∀ p ∈ ps, codec.Reads p) (hfinish : ∀ p ∈ ps, p.handler ≠ .onFinish)
    (hook : StreamHook J) :
    (ps.map (sse codec)).foldl (route codec tz now) hook =
      { hook with queue := hook.queue ++ ps.filterMap (Packet.action codec.dump) } := by
  induction ps generalizing hook with
  | nil => simp
  | cons p ps ih =>
    rw [List.forall_mem_cons] at hsent hjson hfinish
    rw [List.map_cons, List.foldl_cons, route_opening tz now hsent.1 hjson.1 hfinish.1,
      ih hsent.2 hjson.2 hfinish.2]
    cases haction : p.action codec.dump <;> simp [haction]

theorem route_finish {reason : String} {id : UUID}
    (hjson : codec.Reads (.finish reason id)) (hook : StreamHook J) :
    hook.route codec tz now (sse codec (.finish reason id)) =
      match hook.activeTurnRef with
      | none => hook
      | some turn =>
        { hook with completed := hook.completed ++ [finishedPair tz now id turn] }.dispatch
          .turnClear := by
  rw [route_sse tz now rfl hjson, handle, if_pos (by rfl), onFinish]
  cases hook.activeTurnRef <;> rfl

end StreamHook

/-! ## Chunks -/

namespace WireStream

variable {codec : JsonCodec M J} (w : WireStream codec)

theorem opening_sent : ∀ p ∈ w.opening, p.isSent = true ∧ p.handler ≠ .onFinish := by
  intro p hp
  rcases List.mem_cons.1 hp with rfl | hp
  · exact ⟨rfl, nofun⟩
  · have hstreamed := w.packets_streamed p hp
    refine ⟨by simp [Packet.isSent, hstreamed], fun hfinish => ?_⟩
    cases p <;> cases hfinish
    cases hstreamed

theorem sent_sent : ∀ p ∈ w.sent, p.isSent = true := by
  intro p hp
  rcases List.mem_append.1 hp with hp | hp
  · exact (w.opening_sent p hp).1
  · rw [List.mem_singleton.1 hp]
    rfl

theorem sent_length : w.sent.length = w.opening.length + 1 := List.length_append

theorem sent_take {k : Nat} (h : k ≤ w.opening.length) : w.sent.take k = w.opening.take k :=
  List.take_append_of_le_length h

theorem framesWithin_events (n : Nat) :
    (framesWithin n w.frames).filterMap SseFrame.event? =
      (w.sent.take (w.received n)).map (sse codec) := by
  have hbefore := (prefix_framesWithin n w.frames).filterMap SseFrame.event?
  rw [w.frames_events, List.prefix_iff_eq_take] at hbefore
  rw [hbefore, ← List.map_take]
  rfl

theorem received_le (n : Nat) : w.received n ≤ w.sent.length := by
  have hlength : w.received n = min (w.received n) w.sent.length := by
    rw [← List.length_take, ← List.length_map, ← framesWithin_events, received]
  omega

/-- With the whole text everything has come in. -/
theorem received_all {n : Nat} (h : w.text.drop n = []) : w.received n = w.sent.length := by
  rw [received, framesWithin_all (List.drop_eq_nil_iff.1 h), w.frames_events, List.length_map]
  rfl

variable {w} (hjson : ∀ p ∈ w.sent, codec.Reads p)
include hjson

theorem frames_wellFormed : ∀ f ∈ w.frames, f.WellFormed := by
  intro f hf
  cases f with
  | event e =>
    have he : e ∈ w.frames.filterMap SseFrame.event? := List.mem_filterMap.2 ⟨_, hf, rfl⟩
    rw [w.frames_events] at he
    obtain ⟨p, hp, rfl⟩ := List.mem_map.1 he
    exact sse_wellFormed (w.sent_sent p hp) (hjson p hp)
  | comment t => exact w.comments t hf

/-- What the parser has yielded after `n` characters. -/
theorem splitSseBlocks_received (n : Nat) :
    (splitSseBlocks (w.text.take n) []).1 = (w.sent.take (w.received n)).map (sse codec) := by
  rw [text, splitSseBlocks_take (frames_wellFormed hjson), framesWithin_events]

/-- **The next chunk yields the packets whose frames it completes.** -/
theorem splitSseBlocks_chunk {n : Nat} {text : Text}
    (htext : w.text.take (n + text.length) = w.text.take n ++ text) :
    ∃ qs, w.sent.take (w.received (n + text.length)) = w.sent.take (w.received n) ++ qs ∧
      splitSseBlocks text (splitSseBlocks (w.text.take n) []).2 =
        (qs.map (sse codec), (splitSseBlocks (w.text.take (n + text.length)) []).2) := by
  have hpaired : Paired (w.text.take n) := (paired_wireText (frames_wellFormed hjson)).take n
  have hwhole := splitSseBlocks_append hpaired text
  rw [← htext, Prod.ext_iff, splitSseBlocks_received hjson, splitSseBlocks_received hjson] at hwhole
  obtain ⟨hevents, hleftover⟩ := hwhole
  have hlength := congrArg List.length hevents
  rw [List.length_append, List.length_map, List.length_map, List.length_take, List.length_take,
    min_eq_left (w.received_le _), min_eq_left (w.received_le _)] at hlength
  have hle : w.received n ≤ w.received (n + text.length) := by omega
  have hsplit := List.take_append_drop (w.received n) (w.sent.take (w.received (n + text.length)))
  rw [List.take_take, min_eq_left hle] at hsplit
  refine ⟨_, hsplit.symm, Prod.ext ?_ hleftover.symm⟩
  rw [← hsplit, List.map_append] at hevents
  exact (List.append_cancel_left hevents).symm

end WireStream

/-! ## Before `finish` -/

/-- The hook while the stream comes in: `n` characters have been read, and `seen` packets had come
in at the last flush. -/
structure Streaming {codec : JsonCodec M J} (w : WireStream codec) (m : SentMessage)
    (h₀ h : StreamHook J) (n : Nat) (seen : Option Nat) : Prop where
  leftover : h.leftover = (splitSseBlocks (w.text.take n) []).2
  completed : h.completed = h₀.completed
  pending : h.queue.foldl reducer h.state =
    foldPackets codec.dump m.started (w.sent.take (w.received n))
  ref : h.activeTurnRef = seenTurn w m h₀.activeTurnRef seen

/-- The hook after `finish`. -/
structure Finished {codec : JsonCodec M J} (w : WireStream codec)
    (completed : List (ServerMessage J × ServerMessage J)) (h : StreamHook J) (n : Nat) : Prop where
  leftover : h.leftover = (splitSseBlocks (w.text.take n) []).2
  completed : h.completed = completed
  received : w.received n = w.sent.length

section Run

variable {codec : JsonCodec M J} {w : WireStream codec} {m : SentMessage} {h₀ h : StreamHook J}
  {n : Nat} {seen : Option Nat} {tz : Text} {now : Time}

theorem Streaming.flush (hs : Streaming w m h₀ h n seen) :
    Streaming w m h₀ h.flush n (some (w.received n)) where
  leftover := hs.leftover
  completed := hs.completed
  pending := hs.pending
  ref := congrArg ChatState.activeTurn hs.pending

/-- A chunk that does not complete `finish`. -/
theorem Streaming.receive (hjson : ∀ p ∈ w.sent, codec.Reads p) (hs : Streaming w m h₀ h n seen)
    {text : Text} (htext : w.text.take (n + text.length) = w.text.take n ++ text)
    (hopen : w.received (n + text.length) ≤ w.opening.length) :
    Streaming w m h₀ (h.receive codec tz now text) (n + text.length) seen := by
  obtain ⟨qs, hsplit, hchunk⟩ := w.splitSseBlocks_chunk hjson htext
  have hmem : ∀ p ∈ qs, p ∈ w.opening := by
    intro p hp
    have htake := List.mem_append_right (w.sent.take (w.received n)) hp
    rw [← hsplit, w.sent_take hopen] at htake
    exact List.mem_of_mem_take htake
  rw [StreamHook.receive, hs.leftover, hchunk]
  simp only
  rw [StreamHook.route_all tz now (fun p hp => (w.opening_sent p (hmem p hp)).1)
    (fun p hp => hjson p (List.mem_append_left _ (hmem p hp)))
    (fun p hp => (w.opening_sent p (hmem p hp)).2)]
  refine ⟨rfl, hs.completed, ?_, hs.ref⟩
  rw [List.foldl_append, hs.pending, hsplit, foldPackets_append]
  rfl

/-- The chunk that completes `finish`. -/
theorem Streaming.receive_finish (hjson : ∀ p ∈ w.sent, codec.Reads p)
    (hs : Streaming w m h₀ h n seen) (hn : w.received n < w.sent.length) {text : Text}
    (htext : w.text.take (n + text.length) = w.text.take n ++ text)
    (hfinish : w.received (n + text.length) = w.sent.length) :
    Finished w (h₀.completed ++ ((seenTurn w m h₀.activeTurnRef seen).map
      (finishedPair tz now w.assistantMessageId)).toList) (h.receive codec tz now text)
      (n + text.length) := by
  obtain ⟨qs, hsplit, hchunk⟩ := w.splitSseBlocks_chunk hjson htext
  have hle : w.received n ≤ w.opening.length := by
    rw [w.sent_length] at hn
    omega
  obtain ⟨ps, rfl, hps⟩ : ∃ ps, qs = ps ++ [w.finish] ∧ ∀ p ∈ ps, p ∈ w.opening := by
    rw [hfinish, List.take_length, w.sent_take hle] at hsplit
    refine ⟨w.opening.drop (w.received n), ?_, fun p hp => List.mem_of_mem_drop hp⟩
    refine List.append_cancel_left (hsplit.symm.trans ?_)
    rw [← List.append_assoc, List.take_append_drop]
    rfl
  rw [StreamHook.receive, hs.leftover, hchunk, List.map_append]
  simp only [List.foldl_append]
  rw [StreamHook.route_all tz now (fun p hp => (w.opening_sent p (hps p hp)).1)
    (fun p hp => hjson p (List.mem_append_left _ (hps p hp)))
    (fun p hp => (w.opening_sent p (hps p hp)).2)]
  have hlast : w.finish ∈ w.sent := List.mem_append_right _ (List.mem_singleton.2 rfl)
  rw [List.map_singleton, List.foldl_cons, List.foldl_nil, WireStream.finish,
    StreamHook.route_finish tz now (hjson _ hlast)]
  simp only [hs.ref]
  cases seenTurn w m h₀.activeTurnRef seen with
  | none => exact ⟨rfl, by simpa using hs.completed, hfinish⟩
  | some turn => exact ⟨rfl, congrArg (· ++ _) hs.completed, hfinish⟩

/-! ## After `finish` -/

theorem Finished.flush {completed : List (ServerMessage J × ServerMessage J)}
    (hf : Finished w completed h n) : Finished w completed h.flush n :=
  ⟨hf.leftover, hf.completed, hf.received⟩

/-- Nothing comes in any more. -/
theorem Finished.receive {completed : List (ServerMessage J × ServerMessage J)}
    (hjson : ∀ p ∈ w.sent, codec.Reads p) (hf : Finished w completed h n) {text : Text}
    (htext : w.text.take (n + text.length) = w.text.take n ++ text) :
    Finished w completed (h.receive codec tz now text) (n + text.length) := by
  obtain ⟨qs, hsplit, hchunk⟩ := w.splitSseBlocks_chunk hjson htext
  have hlength := congrArg List.length hsplit
  have hle := w.received_le (n + text.length)
  rw [List.length_append, List.length_take, List.length_take, hf.received, min_self,
    min_eq_left hle] at hlength
  have hnil : qs = [] := List.length_eq_zero_iff.1 (by omega)
  subst hnil
  rw [StreamHook.receive, hf.leftover, hchunk]
  refine ⟨rfl, hf.completed, ?_⟩
  rw [List.length_nil] at hlength
  omega

end Run

/-! ## Runs -/

theorem take_chunk {n : Nat} {all text rest : Text} (h : text ++ rest = all.drop n) :
    all.take (n + text.length) = all.take n ++ text ∧ rest = all.drop (n + text.length) := by
  rw [List.take_add, ← List.drop_drop, ← h, List.take_left, List.drop_left]
  exact ⟨rfl, rfl⟩

section

variable {codec : JsonCodec M J} {w : WireStream codec} {m : SentMessage} {h₀ : StreamHook J}
  (tz : Text)

/-- After `finish` no more messages are handed over. -/
theorem Finished.run {completed : List (ServerMessage J × ServerMessage J)}
    (hjson : ∀ p ∈ w.sent, codec.Reads p) {ticks : List Tick} {h : StreamHook J} {n : Nat}
    (hf : Finished w completed h n) (hrest : ticks.flatMap Tick.text = w.text.drop n) :
    (Runs.run (StreamHook.tick codec tz) h ticks).completed = completed := by
  induction ticks generalizing h n with
  | nil => exact hf.completed
  | cons tick ticks ih =>
    cases tick with
    | flush => exact ih hf.flush hrest
    | chunk text now =>
      obtain ⟨htext, hrest'⟩ := take_chunk hrest
      exact ih (hf.receive hjson htext) hrest'

/-- **Run lemma.** The pair handed over is that of the turn in the ref when the chunk that
completes `finish` is read. -/
theorem Streaming.run (hjson : ∀ p ∈ w.sent, codec.Reads p) {ticks : List Tick} {h : StreamHook J}
    {n : Nat} {seen : Option Nat} (hs : Streaming w m h₀ h n seen)
    (hn : w.received n < w.sent.length) (hrest : ticks.flatMap Tick.text = w.text.drop n) :
    ∃ now, (Runs.run (StreamHook.tick codec tz) h ticks).completed = h₀.completed ++
      ((seenTurn w m h₀.activeTurnRef (w.lastFlush n seen ticks)).map
        (finishedPair tz now w.assistantMessageId)).toList := by
  induction ticks generalizing h n seen with
  | nil =>
    rw [w.received_all hrest.symm] at hn
    exact absurd hn (lt_irrefl _)
  | cons tick ticks ih =>
    cases tick with
    | flush => exact ih hs.flush hn hrest
    | chunk text now =>
      obtain ⟨htext, hrest'⟩ := take_chunk hrest
      rw [WireStream.lastFlush]
      split
      · rename_i hfinish
        exact ⟨now, (hs.receive_finish hjson hn htext hfinish).run tz hjson hrest'⟩
      · rename_i hopen
        have hle := w.received_le (n + text.length)
        have hlength := w.sent_length
        exact ih (hs.receive hjson htext (by omega)) (by omega) hrest'

theorem WireStream.received_zero (hjson : ∀ p ∈ w.sent, codec.Reads p) : w.received 0 = 0 := by
  have hnone := congrArg List.length (w.splitSseBlocks_received hjson 0)
  rw [List.length_map, List.length_take, min_eq_left (w.received_le 0)] at hnone
  exact hnone.symm

theorem streaming_sendMessage (hjson : ∀ p ∈ w.sent, codec.Reads p) (h : StreamHook J) :
    Streaming w m h (h.sendMessage m) 0 none := by
  refine ⟨rfl, rfl, ?_, rfl⟩
  rw [w.received_zero hjson]
  simp [StreamHook.sendMessage, StreamHook.dispatch, reducer, foldPackets, SentMessage.started]

end

theorem eventsOrNull_injective {es fs : List (Event J)} (h : eventsOrNull es = eventsOrNull fs) :
    es = fs := by
  unfold eventsOrNull at h
  split at h <;> split at h <;> simp_all

theorem wholeTurn_isSome {codec : JsonCodec M J} (w : WireStream codec) (m : SentMessage) :
    (wholeTurn w m).isSome = true :=
  foldPackets_activeTurn_isSome codec.dump rfl w.opening

/-- **The message handed over is the one of the whole turn exactly when the last flush had all of
its events.** -/
theorem useChatStream_finish {codec : JsonCodec M J} (w : WireStream codec)
    (hjson : ∀ p ∈ w.sent, codec.Reads p) (tz : Text) (m : SentMessage) (h : StreamHook J)
    (ticks : List Tick) (hcut : ticks.flatMap Tick.text = w.text) :
    HandsOver h (Runs.run (StreamHook.tick codec tz) (h.sendMessage m) ticks) (wholeTurn w m) ↔
      (seenTurn w m h.activeTurnRef (w.lastFlush 0 none ticks)).map serverEventsFromTurn =
        (wholeTurn w m).map serverEventsFromTurn := by
  have hstart : w.received 0 < w.sent.length := by
    rw [w.received_zero hjson, w.sent_length]
    omega
  obtain ⟨now, hcompleted⟩ := (streaming_sendMessage hjson h).run tz hjson hstart hcut
  obtain ⟨whole, hwhole⟩ := Option.isSome_iff_exists.1 (wholeTurn_isSome w m)
  rw [HandsOver, hcompleted, hwhole, Option.map_some, Option.map_some]
  cases seenTurn w m h.activeTurnRef (w.lastFlush 0 none ticks) with
  | none => simp
  | some turn =>
    rw [Option.map_some, Option.map_some, Option.toList_some, Option.some.injEq]
    constructor
    · rintro ⟨user, assistant, hpair, hmessage⟩
      obtain ⟨-, rfl⟩ := Prod.ext_iff.1 (List.singleton_inj.1 (List.append_cancel_left hpair))
      exact (eventsOrNull_injective (Prod.ext_iff.1 (Option.some.inj hmessage)).1).symm
    · intro hevents
      exact ⟨_, _, rfl, by rw [← hevents]⟩

/-! ## Two deltas -/

def sampleStart : Packet Unit := .start 1 2

def sampleDelta (delta : Text) : Packet Unit := .textDelta (some 1) delta

def sampleFinish : Packet Unit := .finish "stop" 1

/-- The text of a small id. -/
def idText (digit : Char) : Text :=
  let zeros := fun n => List.replicate n '0'
  zeros 8 ++ '-' :: zeros 4 ++ '-' :: zeros 4 ++ '-' :: zeros 4 ++ '-' :: zeros 11 ++ [digit]

def sampleDeltaJson (delta : Char) : Text :=
  "\x7b\"type\":\"text_delta\",\"kind\":\"text\",\"step\":1,\"delta\":\"".toList ++
    delta :: "\"\x7d".toList

/-- The JSON texts of the four packets. -/
def sampleJson : List (Packet Unit × Text) :=
  [(sampleStart, "\x7b\"type\":\"start\",\"assistant_message_id\":\"".toList ++ idText '1' ++
      "\",\"session_id\":\"".toList ++ idText '2' ++ "\"\x7d".toList),
    (sampleDelta ['a'], sampleDeltaJson 'a'),
    (sampleDelta ['b'], sampleDeltaJson 'b'),
    (sampleFinish, "\x7b\"type\":\"finish\",\"reason\":\"stop\",".toList ++
      "\"assistant_message_id\":\"".toList ++ idText '1' ++ "\"\x7d".toList)]

def sampleCodec : JsonCodec Unit Unit where
  dump := id
  dumpJson := fun p => ((sampleJson.find? fun entry => entry.1 = p).map Prod.snd).getD []
  parse := fun text => (sampleJson.find? fun entry => entry.2 = text).map fun entry =>
    entry.1.payload id

def sampleFrame (p : Packet Unit) : SseFrame := .event (sse sampleCodec p)

/-- `start`, the deltas `a` and `b`, `finish`. -/
def twoDeltas : WireStream sampleCodec where
  assistantMessageId := 1
  sessionId := 2
  reason := "stop"
  packets := [sampleDelta ['a'], sampleDelta ['b']]
  frames := [sampleFrame sampleStart, sampleFrame (sampleDelta ['a']),
    sampleFrame (sampleDelta ['b']), sampleFrame sampleFinish]
  packets_streamed := by decide
  frames_events := rfl
  comments := by simp [sampleFrame]

/-- Nothing sent yet. -/
def idleHook : StreamHook Unit := ⟨initialState, [], none, [], []⟩

def sampleMessage : SentMessage := ⟨3, "hi".toList, 0⟩

/-- One chunk with `start` and the first delta, a flush, and one with the second delta and
`finish`. -/
def staleTicks : List Tick :=
  [.chunk (wireText [sampleFrame sampleStart, sampleFrame (sampleDelta ['a'])]) 5, .flush,
    .chunk (wireText [sampleFrame (sampleDelta ['b']), sampleFrame sampleFinish]) 6]

/-- The same, with a flush before `finish`. -/
def freshTicks : List Tick :=
  [.chunk (wireText [sampleFrame sampleStart, sampleFrame (sampleDelta ['a'])]) 5, .flush,
    .chunk (wireText [sampleFrame (sampleDelta ['b'])]) 6, .flush,
    .chunk (wireText [sampleFrame sampleFinish]) 7]

theorem twoDeltas_reads : ∀ p ∈ twoDeltas.sent, sampleCodec.Reads p := by
  decide +kernel

theorem useChatStream_finish_fresh :
    HandsOver idleHook
      (Runs.run (StreamHook.tick sampleCodec []) (idleHook.sendMessage sampleMessage) freshTicks)
      (wholeTurn twoDeltas sampleMessage) := by
  have hsample : freshTicks.flatMap Tick.text = twoDeltas.text ∧
      (seenTurn twoDeltas sampleMessage idleHook.activeTurnRef
        (twoDeltas.lastFlush 0 none freshTicks)).map serverEventsFromTurn =
      (wholeTurn twoDeltas sampleMessage).map serverEventsFromTurn := by decide +kernel
  exact (useChatStream_finish twoDeltas twoDeltas_reads [] sampleMessage idleHook freshTicks
    hsample.1).2 hsample.2

/-- The text of `b` is missing from the message. -/
theorem useChatStream_finish_stale :
    staleTicks.flatMap Tick.text = twoDeltas.text ∧
      (Runs.run (StreamHook.tick sampleCodec []) (idleHook.sendMessage sampleMessage)
        staleTicks).completed.map (fun pair => pair.2.content) = [['a']] ∧
      ¬ HandsOver idleHook
        (Runs.run (StreamHook.tick sampleCodec []) (idleHook.sendMessage sampleMessage) staleTicks)
        (wholeTurn twoDeltas sampleMessage) := by
  have hsample : staleTicks.flatMap Tick.text = twoDeltas.text ∧
      (Runs.run (StreamHook.tick sampleCodec []) (idleHook.sendMessage sampleMessage)
        staleTicks).completed.map (fun pair => pair.2.content) = [['a']] := by decide +kernel
  have hwhole : (wholeTurn twoDeltas sampleMessage).map
      (fun turn => contentOf (serverEventsFromTurn turn)) = some ['a', 'b'] := by decide
  refine ⟨hsample.1, hsample.2, ?_⟩
  rintro ⟨user, assistant, hcompleted, hmessage⟩
  have hassistant : [assistant.content] = [['a']] := by
    rw [← hsample.2, hcompleted]
    rfl
  have hboth := congrArg (Option.map Prod.snd) hmessage
  rw [Option.map_map, Option.map_some, List.singleton_inj.1 hassistant] at hboth
  exact absurd (hwhole.symm.trans hboth) (by simp)

end MeJournal
