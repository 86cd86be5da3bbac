import MeJournal.Mobile.UseChatStream

/-!
# Several sends over one hook

`sendMessage` and `stop` of `mobile/lib/chat/use-chat-stream.ts`, and the read loops of the streams
that the sends opened.  Every loop dispatches into the one reducer and reads the one
`activeTurnRef`.  Aborting ends the reads of a stream, but a chunk whose read has resolved is still
handled, whatever was sent in between.

* `receive_spec` — what the handlers of one chunk do to the hook.
* `sends_kept_apart` — when every chunk is handled in time, the active turn holds the packets of its
  own send only, and every pair handed over is of one send.
* `sends_kept_apart_late` — a chunk handled after the next send ends up in the next send's turn.
-/

namespace MeJournal

variable {M J : Type}

/-! ## The hook between two renders -/

/-- The state once the queue is reduced. -/
def StreamHook.latest (h : StreamHook J) : ChatState J := h.queue.foldl reducer h.state

/-- An action that begins a turn. -/
def ChatAction.startsTurn : ChatAction J → Bool
  | .turnStart .. => true
  | _ => false

/-- The assistant ids of the `finish` packets among the events. -/
def finishIds (codec : JsonCodec M J) (events : List SseEvent) : List UUID :=
  events.filterMap fun event =>
    (routePacket codec.parse event).bind fun (handler, p) =>
      if handler = .onFinish then p.assistantMessageId else none

/-- The event's handler dispatches something, given the ref. -/
def acts (codec : JsonCodec M J) (ref : Option (ActiveTurn J)) (event : SseEvent) : Bool :=
  match routePacket codec.parse event with
  | none => false
  | some (handler, p) =>
    if handler = .onFinish then ref.isSome && p.assistantMessageId.isSome
    else (handler.action p).isSome

/-! ## The sends -/

/-- The stream that a send opened. -/
structure OpenStream (J : Type) where
  message : SentMessage
  aborted : Bool
  /-- It threw. -/
  ended : Bool
  leftover : Text
  /-- A chunk whose read has resolved and that the loop has not handled yet. -/
  pending : Option Text
  /-- What its handlers have dispatched. -/
  dispatched : List (ChatAction J)
  /-- The assistant ids of the `finish` packets it has brought. -/
  finishIds : List UUID

def OpenStream.new (m : SentMessage) : OpenStream J where
  message := m
  aborted := false
  ended := false
  leftover := []
  pending := none
  dispatched := []
  finishIds := []

/-- The hook with the streams of all sends, oldest first. -/
structure Sends (J : Type) where
  hook : StreamHook J
  streams : List (OpenStream J)
  /-- The stream whose controller `abortRef` holds. -/
  abortRef : Option Nat
  /-- The number of sends at the last flush. -/
  rendered : Nat

inductive SendEvent where
  | send (signedIn : Bool) (m : SentMessage)
  | stop
  /-- A read of the stream resolves. -/
  | resolve (i : Nat) (text : Text)
  /-- The loop handles the chunk. -/
  | deliver (i : Nat) (now : Time)
  /-- `streamChat` throws. -/
  | fail (i : Nat) (message : Text)
  | flush

namespace Sends

def start : Sends J := ⟨⟨initialState, [], none, [], []⟩, [], none, 0⟩

/-- `abortRef.current?.abort()`. -/
def abortCurrent (s : Sends J) : Sends J :=
  match s.abortRef with
  | none => s
  | some i => { s with streams := s.streams.modify i fun st => { st with aborted := true } }

/-- `stop`. -/
def stop (s : Sends J) : Sends J :=
  { s.abortCurrent with hook := s.hook.dispatch .turnClear, abortRef := none }

/-- `sendMessage`, up to the first read. -/
def sendMessage (s : Sends J) (signedIn : Bool) (m : SentMessage) : Sends J :=
  if signedIn then
    { s.abortCurrent with
      hook := s.hook.sendMessage m
      streams := s.abortCurrent.streams ++ [.new m]
      abortRef := some s.streams.length }
  else s

/-- A read resolves only while the loop waits for it. -/
def resolve (s : Sends J) (i : Nat) (text : Text) : Sends J :=
  { s with
    streams := s.streams.modify i fun st =>
      if st.aborted || st.ended || st.pending.isSome then st else { st with pending := some text } }

/-- The hook after the chunk. -/
def received (codec : JsonCodec M J) (tz : Text) (now : Time) (s : Sends J) (st : OpenStream J)
    (text : Text) : StreamHook J :=
  { s.hook with leftover := st.leftover }.receive codec tz now text

/-- The loop handles the chunk, aborted or not. -/
def deliver (codec : JsonCodec M J) (tz : Text) (s : Sends J) (i : Nat) (now : Time) : Sends J :=
  match s.streams[i]? with
  | none => s
  | some st =>
    match st.pending with
    | none => s
    | some text =>
      let hook := s.received codec tz now st text
      { s with
        hook := hook
        streams := s.streams.set i { st with
          leftover := hook.leftover
          pending := none
          dispatched := st.dispatched ++ hook.queue.drop s.hook.queue.length
          finishIds := st.finishIds ++ MeJournal.finishIds codec
            (splitSseBlocks text st.leftover).1 } }

/-- The `catch` of the send: nothing after an abort. -/
def fail (s : Sends J) (i : Nat) (message : Text) : Sends J :=
  match s.streams[i]? with
  | none => s
  | some st =>
    if st.ended || st.pending.isSome then s
    else if st.aborted then { s with streams := s.streams.set i { st with ended := true } }
    else
      let action := .packetError "stream_failed".toList message
      { s with
        hook := s.hook.dispatch action
        streams := s.streams.set i
          { st with ended := true, dispatched := st.dispatched ++ [action] } }

def flush (s : Sends J) : Sends J :=
  { s with hook := s.hook.flush, rendered := s.streams.length }

def step (codec : JsonCodec M J) (tz : Text) (s : Sends J) : SendEvent → Sends J
  | .send signedIn m => s.sendMessage signedIn m
  | .stop => s.stop
  | .resolve i text => s.resolve i text
  | .deliver i now => s.deliver codec tz i now
  | .fail i message => s.fail i message
  | .flush => s.flush

end Sends

/-! ## What is to hold -/

/-- The turn of a send, from what its own handlers dispatched. -/
def turnOf (m : SentMessage) (actions : List (ChatAction J)) : Option (ActiveTurn J) :=
  (actions.foldl reducer m.started).activeTurn

/-- The pair has the text, the assistant id and the events of one send. -/
def OpenStream.Owns (st : OpenStream J) (pair : ServerMessage J × ServerMessage J) : Prop :=
  pair.1.id = st.message.clientMessageId ∧ pair.1.content = st.message.userText ∧
    pair.2.id ∈ st.finishIds ∧ ∃ actions turn, actions <+: st.dispatched ∧
      turnOf st.message actions = some turn ∧
        pair.2.events = eventsOrNull (serverEventsFromTurn turn)

/-- The active turn, if any, is what the last send made of it. -/
def OwnTurn (state : ChatState J) (ss : List (OpenStream J)) : Prop :=
  ∀ turn, state.activeTurn = some turn →
    ∃ (k : Nat) (st : OpenStream J), k + 1 = ss.length ∧ ss[k]? = some st ∧
      turnOf st.message st.dispatched = some turn

def Sends.OwnPairs (s : Sends J) : Prop :=
  ∀ pair ∈ s.hook.completed, ∃ st ∈ s.streams, st.Owns pair

/-- No event changes a turn that is active when it is routed. -/
def LeaveTurn (codec : JsonCodec M J) (tz : Text) (now : Time) :
    StreamHook J → List SseEvent → Prop
  | _, [] => True
  | h, event :: events =>
    (h.latest.activeTurn.isSome = true →
      (h.route codec tz now event).latest.activeTurn = h.latest.activeTurn) ∧
    LeaveTurn codec tz now (h.route codec tz now event) events

/-- A chunk of a send after which there was another leaves that one's turn alone. -/
def LeavesLaterTurn (codec : JsonCodec M J) (tz : Text) (s : Sends J) : SendEvent → Prop
  | .deliver i now => ∀ st text, s.streams[i]? = some st → st.pending = some text →
      i + 1 < s.streams.length →
        LeaveTurn codec tz now s.hook (splitSseBlocks text st.leftover).1
  | _ => True

/-- A chunk on which a handler acts comes from the last send, or while no turn is active; one with
`finish` also comes while the ref holds nothing or a turn of its own send. -/
def Sends.inTime (codec : JsonCodec M J) (s : Sends J) : SendEvent → Bool
  | .deliver i _ =>
    match s.streams[i]? with
    | none => true
    | some st =>
      match st.pending with
      | none => true
      | some text =>
        let events := (splitSseBlocks text st.leftover).1
        (events.all fun event => !acts codec s.hook.activeTurnRef event) ||
          ((i + 1 == s.streams.length || s.hook.latest.activeTurn.isNone) &&
            ((finishIds codec events).isEmpty || s.hook.activeTurnRef.isNone ||
              s.rendered == i + 1))
  | _ => true

/-! ## Actions -/

/-- Only `turn/start` begins a turn. -/
theorem reducer_none {state : ChatState J} (h : state.activeTurn = none) {action : ChatAction J}
    (hstart : action.startsTurn = false) : (reducer state action).activeTurn = none := by
  cases action <;> simp_all [reducer, ChatState.updateTurn, ChatAction.startsTurn, initialState]

theorem foldl_reducer_none {state : ChatState J} (h : state.activeTurn = none)
    {actions : List (ChatAction J)} (hstart : ∀ a ∈ actions, a.startsTurn = false) :
    (actions.foldl reducer state).activeTurn = none := by
  induction actions generalizing state with
  | nil => exact h
  | cons a actions ih =>
    rw [List.forall_mem_cons] at hstart
    exact ih (reducer_none h hstart.1) hstart.2

/-- The message a turn was started with. -/
def ActiveTurn.message (turn : ActiveTurn J) : SentMessage :=
  ⟨turn.clientMessageId, turn.userText, turn.startedAt⟩

/-- Other actions keep the message of the turn. -/
theorem reducer_message {state : ChatState J} {m : SentMessage}
    (h : ∀ turn, state.activeTurn = some turn → turn.message = m) {action : ChatAction J}
    (hstart : action.startsTurn = false) :
    ∀ turn, (reducer state action).activeTurn = some turn → turn.message = m := by
  have hupdate : ∀ update : ActiveTurn J → ActiveTurn J, (∀ t, (update t).message = t.message) →
      ∀ turn, (state.updateTurn update).activeTurn = some turn → turn.message = m := by
    intro update hkeeps turn hturn
    unfold ChatState.updateTurn at hturn
    split at hturn
    · exact h turn hturn
    · rename_i old hold
      rw [← Option.some.inj hturn, hkeeps]
      exact h old hold
  cases action with
  | turnStart => cases hstart
  | turnClear => exact nofun
  | packetTextDelta =>
    refine hupdate _ fun t => ?_
    split <;> rfl
  | _ => exact hupdate _ fun t => rfl

theorem foldl_reducer_message {m : SentMessage} {actions : List (ChatAction J)}
    (hstart : ∀ a ∈ actions, a.startsTurn = false) {state : ChatState J}
    (h : ∀ turn, state.activeTurn = some turn → turn.message = m) :
    ∀ turn, (actions.foldl reducer state).activeTurn = some turn → turn.message = m := by
  induction actions generalizing state with
  | nil => exact h
  | cons a actions ih =>
    rw [List.forall_mem_cons] at hstart
    exact ih hstart.2 (reducer_message h hstart.1)

theorem turnOf_message {m : SentMessage} {actions : List (ChatAction J)}
    (hstart : ∀ a ∈ actions, a.startsTurn = false) {turn : ActiveTurn J}
    (hturn : turnOf m actions = some turn) : turn.message = m := by
  refine foldl_reducer_message hstart (fun turn hstarted => ?_) turn hturn
  rw [← Option.some.inj hstarted]
  rfl

/-! ## One chunk -/

/-- What the handlers of some events have done to the hook. -/
structure Handled (codec : JsonCodec M J) (tz : Text) (now : Time) (events : List SseEvent)
    (h h' : StreamHook J) (actions : List (ChatAction J))
    (pairs : List (ServerMessage J × ServerMessage J)) : Prop where
  queue : h'.queue = h.queue ++ actions
  completed : h'.completed = h.completed ++ pairs
  state : h'.state = h.state
  ref : h'.activeTurnRef = h.activeTurnRef
  startsTurn : ∀ a ∈ actions, a.startsTurn = false
  pairs : ∀ pair ∈ pairs, ∃ turn id, h.activeTurnRef = some turn ∧ id ∈ finishIds codec events ∧
    pair = finishedPair tz now id turn

section Chunk

variable {codec : JsonCodec M J} {tz : Text} {now : Time} {events : List SseEvent}
  {event : SseEvent} {h h' : StreamHook J} {actions : List (ChatAction J)}
  {pairs : List (ServerMessage J × ServerMessage J)}

theorem action_startsTurn {p : Payload J} {handler : Handler} {action : ChatAction J}
    (h : handler.action p = some action) : action.startsTurn = false := by
  cases action with
  | turnStart => cases handler <;> simp [Handler.action, Option.bind_eq_some_iff] at h
  | _ => rfl

/-- **One event**: nothing, an action, or a pair and the end of the turn. -/
theorem route_cases (codec : JsonCodec M J) (tz : Text) (now : Time) (h : StreamHook J)
    (event : SseEvent) :
    (h.route codec tz now event = h) ∨
      (∃ action, action.startsTurn = false ∧ h.route codec tz now event = h.dispatch action) ∨
      (∃ turn id, h.activeTurnRef = some turn ∧ finishIds codec [event] = [id] ∧
        h.route codec tz now event =
          { h with completed := h.completed ++ [finishedPair tz now id turn] }.dispatch
            .turnClear) := by
  unfold StreamHook.route
  split
  · exact Or.inl rfl
  rename_i handler p hroute
  unfold StreamHook.handle
  split
  · rename_i hfinish
    unfold StreamHook.onFinish
    split
    · rename_i turn id hturn hid
      refine Or.inr (Or.inr ⟨turn, id, hturn, ?_, rfl⟩)
      simp [finishIds, hroute, hfinish, hid]
    · exact Or.inl rfl
  · split
    · exact Or.inl rfl
    · rename_i action haction
      exact Or.inr (Or.inl ⟨action, action_startsTurn haction, rfl⟩)

/-- An event on which no handler acts. -/
theorem route_of_idle (tz : Text) (now : Time) (h : StreamHook J)
    (hidle : acts codec h.activeTurnRef event = false) :
    h.route codec tz now event = h := by
  unfold acts at hidle
  unfold StreamHook.route
  split
  · rfl
  rename_i handler p hroute
  simp only [hroute] at hidle
  unfold StreamHook.handle
  split
  · rename_i hfinish
    rw [if_pos hfinish] at hidle
    unfold StreamHook.onFinish
    split
    · rename_i turn id hturn hid
      simp [hturn, hid] at hidle
    · rfl
  · rename_i hother
    rw [if_neg hother, Option.isSome_eq_false_iff, Option.isNone_iff_eq_none] at hidle
    rw [hidle]

theorem foldl_route_of_idle (tz : Text) (now : Time) (h : StreamHook J)
    (hidle : ∀ event ∈ events, acts codec h.activeTurnRef event = false) :
    events.foldl (StreamHook.route codec tz now) h = h := by
  induction events with
  | nil => rfl
  | cons event events ih =>
    rw [List.forall_mem_cons] at hidle
    rw [List.foldl_cons, route_of_idle tz now h hidle.1]
    exact ih hidle.2

theorem Handled.cons {h₁ : StreamHook J} {actions₁ : List (ChatAction J)}
    {pairs₁ : List (ServerMessage J × ServerMessage J)}
    (hfirst : Handled codec tz now [event] h h₁ actions₁ pairs₁)
    (hrest : Handled codec tz now events h₁ h' actions pairs) :
    Handled codec tz now (event :: events) h h' (actions₁ ++ actions) (pairs₁ ++ pairs) where
  queue := by rw [hrest.queue, hfirst.queue, List.append_assoc]
  completed := by rw [hrest.completed, hfirst.completed, List.append_assoc]
  state := hrest.state.trans hfirst.state
  ref := hrest.ref.trans hfirst.ref
  startsTurn := List.forall_mem_append.2 ⟨hfirst.startsTurn, hrest.startsTurn⟩
  pairs := by
    have hids : finishIds codec (event :: events) =
      finishIds codec [event] ++ finishIds codec events := List.filterMap_append (l := [event])
    rw [hids]
    refine List.forall_mem_append.2 ⟨fun pair hpair => ?_, fun pair hpair => ?_⟩
    · obtain ⟨turn, id, hturn, hid, heq⟩ := hfirst.pairs pair hpair
      exact ⟨turn, id, hturn, List.mem_append_left _ hid, heq⟩
    · obtain ⟨turn, id, hturn, hid, heq⟩ := hrest.pairs pair hpair
      exact ⟨turn, id, hfirst.ref ▸ hturn, List.mem_append_right _ hid, heq⟩

theorem handled_route (codec : JsonCodec M J) (tz : Text) (now : Time) (h : StreamHook J)
    (event : SseEvent) : ∃ actions pairs,
      Handled codec tz now [event] h (h.route codec tz now event) actions pairs := by
  rcases route_cases codec tz now h event with hsame | ⟨action, hstart, haction⟩ |
    ⟨turn, id, hturn, hid, hpair⟩
  · rw [hsame]
    exact ⟨[], [], by simp, by simp, rfl, rfl, by simp, by simp⟩
  · rw [haction]
    exact ⟨[action], [], rfl, by simp [StreamHook.dispatch], rfl, rfl, by simpa using hstart,
      by simp⟩
  · rw [hpair]
    refine ⟨[.turnClear], [finishedPair tz now id turn], rfl, rfl, rfl, rfl, ?_, ?_⟩
    · simp [ChatAction.startsTurn]
    · simp [hturn, hid]

theorem handled_foldl (codec : JsonCodec M J) (tz : Text) (now : Time) (events : List SseEvent)
    (h : StreamHook J) : ∃ actions pairs, Handled codec tz now events h
      (events.foldl (StreamHook.route codec tz now) h) actions pairs := by
  induction events generalizing h with
  | nil => exact ⟨[], [], by simp, by simp, rfl, rfl, by simp, by simp⟩
  | cons event events ih =>
    obtain ⟨actions₁, pairs₁, hfirst⟩ := handled_route codec tz now h event
    obtain ⟨actions, pairs, hrest⟩ := ih (h.route codec tz now event)
    exact ⟨_, _, hfirst.cons hrest⟩

/-- The actions are reduced after what was in the queue. -/
theorem Handled.latest (hh : Handled codec tz now events h h' actions pairs) :
    h'.latest = actions.foldl reducer h.latest := by
  rw [StreamHook.latest, hh.queue, hh.state, List.foldl_append, ← StreamHook.latest]

/-- Without `finish`, or with nothing in the ref, nothing is handed over. -/
theorem Handled.pairs_eq_nil (hh : Handled codec tz now events h h' actions pairs)
    (hnone : finishIds codec events = [] ∨ h.activeTurnRef = none) : pairs = [] := by
  refine List.eq_nil_iff_forall_not_mem.2 fun pair hpair => ?_
  obtain ⟨turn, id, hturn, hid, -⟩ := hh.pairs pair hpair
  rcases hnone with hnone | hnone
  · rw [hnone] at hid
    cases hid
  · rw [hnone] at hturn
    cases hturn

end Chunk

/-! ## The streams -/

/-- The stream later on. -/
structure OpenStream.Grows (st st' : OpenStream J) : Prop where
  message : st'.message = st.message
  dispatched : st.dispatched <+: st'.dispatched
  finishIds : st.finishIds <+: st'.finishIds

theorem OpenStream.Grows.refl (st : OpenStream J) : st.Grows st :=
  ⟨rfl, List.prefix_rfl, List.prefix_rfl⟩

theorem OpenStream.Owns.grows {st st' : OpenStream J} (hgrows : st.Grows st')
    {pair : ServerMessage J × ServerMessage J} (h : st.Owns pair) : st'.Owns pair := by
  obtain ⟨hid, hcontent, hassistant, actions, turn, hbefore, hturn, hevents⟩ := h
  rw [← hgrows.message] at hid hcontent hturn
  exact ⟨hid, hcontent, hgrows.finishIds.subset hassistant, actions, turn,
    hbefore.trans hgrows.dispatched, hturn, hevents⟩

/-- Every stream is still there, at its place. -/
def Extend (ss ss' : List (OpenStream J)) : Prop :=
  ∀ (k : Nat) (st : OpenStream J), ss[k]? = some st → ∃ st', ss'[k]? = some st' ∧ st.Grows st'

theorem extend_append (ss rest : List (OpenStream J)) : Extend ss (ss ++ rest) :=
  fun k st hst => ⟨st, by rw [List.getElem?_append_left (List.getElem?_eq_some_iff.1 hst).1, hst],
    .refl st⟩

theorem extend_set {ss : List (OpenStream J)} {i : Nat} {st st' : OpenStream J}
    (hst : ss[i]? = some st) (hgrows : st.Grows st') : Extend ss (ss.set i st') := by
  intro k st₁ hst₁
  rw [List.getElem?_set]
  split
  · rename_i hk
    subst hk
    obtain rfl := Option.some.inj (hst.symm.trans hst₁)
    rw [if_pos (List.getElem?_eq_some_iff.1 hst).1]
    exact ⟨st', rfl, hgrows⟩
  · exact ⟨st₁, hst₁, .refl st₁⟩

/-- Only the stream in `abortRef` is not aborted, and it is the last. -/
structure Opened (ss : List (OpenStream J)) (abortRef : Option Nat) : Prop where
  last : ∀ i, abortRef = some i → i + 1 = ss.length
  current : ∀ (k : Nat) (st : OpenStream J), ss[k]? = some st → st.aborted = false →
    abortRef = some k
  startsTurn : ∀ (k : Nat) (st : OpenStream J), ss[k]? = some st →
    ∀ a ∈ st.dispatched, a.startsTurn = false

section Opened

variable {ss : List (OpenStream J)} {abortRef : Option Nat} {i : Nat} {st st' : OpenStream J}

/-- In the list with a stream replaced, each is the new one or one that was there. -/
theorem getElem?_set_stream {k : Nat} {st₁ : OpenStream J} (hst : ss[i]? = some st)
    (hst₁ : (ss.set i st')[k]? = some st₁) : i = k ∧ st₁ = st' ∨ i ≠ k ∧ ss[k]? = some st₁ := by
  rw [List.getElem?_set] at hst₁
  split at hst₁
  case isTrue hk =>
    subst hk
    rw [if_pos (List.getElem?_eq_some_iff.1 hst).1] at hst₁
    exact .inl ⟨rfl, (Option.some.inj hst₁).symm⟩
  case isFalse hk =>
    exact .inr ⟨hk, hst₁⟩

/-- A stream that stays aborted if it was, and has dispatched no more than packets' actions. -/
theorem Opened.set (h : Opened ss abortRef) (hst : ss[i]? = some st)
    (haborted : st.aborted = true → st'.aborted = true)
    (hstarts : ∀ a ∈ st'.dispatched, a.startsTurn = false) : Opened (ss.set i st') abortRef where
  last j hj := by
    rw [List.length_set]
    exact h.last j hj
  current k st₁ hst₁ hopen := by
    obtain ⟨rfl, rfl⟩ | ⟨-, hst₁⟩ := getElem?_set_stream hst hst₁
    · refine h.current i st hst (Bool.eq_false_iff.2 fun hab => ?_)
      rw [haborted hab] at hopen
      cases hopen
    · exact h.current k st₁ hst₁ hopen
  startsTurn k st₁ hst₁ := by
    obtain ⟨-, rfl⟩ | ⟨-, hst₁⟩ := getElem?_set_stream hst hst₁
    · exact hstarts
    · exact h.startsTurn k st₁ hst₁

/-- Once the stream in `abortRef` is aborted, all are. -/
theorem Opened.abort (h : Opened ss abortRef) (hst : ss[i]? = some st) (hi : abortRef = some i)
    (hstate : st'.aborted = true) (hdispatched : st'.dispatched = st.dispatched) :
    Opened (ss.set i st') none where
  last := nofun
  current k st₁ hst₁ hopen := by
    obtain ⟨-, rfl⟩ | ⟨hk, hst₁⟩ := getElem?_set_stream hst hst₁
    · rw [hstate] at hopen
      cases hopen
    · have hcurrent := h.current k st₁ hst₁ hopen
      exact absurd (Option.some.inj (hi.symm.trans hcurrent)) hk
  startsTurn := (h.set hst (fun _ => hstate)
    (hdispatched ▸ h.startsTurn i st hst)).startsTurn

/-- A new stream after all others have been aborted. -/
theorem Opened.push (h : Opened ss none) (m : SentMessage) :
    Opened (ss ++ [.new m]) (some ss.length) where
  last j hj := by
    rw [← Option.some.inj hj, List.length_append, List.length_singleton]
  current k st₁ hst₁ hopen := by
    rw [List.getElem?_append] at hst₁
    split at hst₁
    · cases h.current k st₁ hst₁ hopen
    · rename_i hk
      have hlt := (List.getElem?_eq_some_iff.1 hst₁).1
      rw [List.length_singleton] at hlt
      exact congrArg some (by omega)
  startsTurn k st₁ hst₁ := by
    rw [List.getElem?_append] at hst₁
    split at hst₁
    · exact h.startsTurn k st₁ hst₁
    · have hnew : st₁ = .new m := by
        simpa using List.mem_of_getElem? hst₁
      rw [hnew]
      exact nofun

end Opened

/-! ## The active turn -/

theorem turnOf_append {m : SentMessage} {actions more : List (ChatAction J)} {state : ChatState J}
    (h : turnOf m actions = state.activeTurn) :
    turnOf m (actions ++ more) = (more.foldl reducer state).activeTurn := by
  have hstate : actions.foldl reducer m.started = state := by
    cases state
    exact congrArg ChatState.mk h
  rw [turnOf, List.foldl_append, hstate]

/-- The handlers of one stream dispatch `actions`: none, or those of the last send, or while no
turn is active. -/
theorem OwnTurn.set {state : ChatState J} {ss : List (OpenStream J)} (h : OwnTurn state ss)
    {i : Nat} {st st' : OpenStream J} (hst : ss[i]? = some st) {actions : List (ChatAction J)}
    (hmessage : st'.message = st.message) (hdispatched : st'.dispatched = st.dispatched ++ actions)
    (hstarts : ∀ a ∈ actions, a.startsTurn = false)
    (hfrom : actions = [] ∨ i + 1 = ss.length ∨ state.activeTurn = none) :
    OwnTurn (actions.foldl reducer state) (ss.set i st') := by
  intro turn hturn
  cases hstate : state.activeTurn with
  | none => rw [foldl_reducer_none hstate hstarts] at hturn; cases hturn
  | some old =>
    obtain ⟨k, last, hk, hlast, hold⟩ := h old hstate
    by_cases hik : i = k
    · subst hik
      obtain rfl := Option.some.inj (hst.symm.trans hlast)
      refine ⟨i, st', by rwa [List.length_set], ?_, ?_⟩
      · rw [List.getElem?_set_self (List.getElem?_eq_some_iff.1 hst).1]
      · rw [hmessage, hdispatched, turnOf_append (hold.trans hstate.symm), hturn]
    · have hnone : actions = [] := by
        rcases hfrom with hnil | hi | hidle
        · exact hnil
        · omega
        · rw [hstate] at hidle
          cases hidle
      subst hnone
      refine ⟨k, last, by rwa [List.length_set], ?_, ?_⟩
      · rw [List.getElem?_set_ne hik, hlast]
      · rw [hold, ← hstate, ← hturn]
        rfl

/-! ## One step -/

namespace Sends

variable {codec : JsonCodec M J} {tz : Text} {s : Sends J}

/-- What the steps of a run keep when they are in time. -/
structure Apart (s : Sends J) : Prop where
  opened : Opened s.streams s.abortRef
  turn : OwnTurn s.hook.latest s.streams
  /-- The turn in the ref is one that a send had at the last flush. -/
  ref : ∀ turn, s.hook.activeTurnRef = some turn →
    ∃ (k : Nat) (st : OpenStream J), k + 1 = s.rendered ∧ s.streams[k]? = some st ∧
      ∃ actions, actions <+: st.dispatched ∧ turnOf st.message actions = some turn
  pairs : s.OwnPairs

theorem apart_start : (start : Sends J).Apart where
  opened := ⟨nofun, by simp [start], by simp [start]⟩
  turn := nofun
  ref := nofun
  pairs := by simp [OwnPairs, start]

/-- What was handed over, and what is in the ref, stays with its send. -/
theorem Apart.carry (h : s.Apart) {ss : List (OpenStream J)} (hss : Extend s.streams ss) :
    (∀ turn, s.hook.activeTurnRef = some turn →
      ∃ (k : Nat) (st : OpenStream J), k + 1 = s.rendered ∧ ss[k]? = some st ∧
        ∃ actions, actions <+: st.dispatched ∧ turnOf st.message actions = some turn) ∧
      ∀ pair ∈ s.hook.completed, ∃ st ∈ ss, st.Owns pair := by
  refine ⟨fun turn hturn => ?_, fun pair hpair => ?_⟩
  · obtain ⟨k, st, hk, hst, actions, hbefore, hactions⟩ := h.ref turn hturn
    obtain ⟨st', hst', hgrows⟩ := hss k st hst
    exact ⟨k, st', hk, hst', actions, hbefore.trans hgrows.dispatched,
      hgrows.message ▸ hactions⟩
  · obtain ⟨st, hst, howns⟩ := h.pairs pair hpair
    obtain ⟨k, hk⟩ := List.mem_iff_getElem?.1 hst
    obtain ⟨st', hst', hgrows⟩ := hss k st hk
    exact ⟨st', List.mem_of_getElem? hst', howns.grows hgrows⟩

/-- A step that only changes what the loop of one stream is at. -/
theorem Apart.set (h : s.Apart) {i : Nat} {st st' : OpenStream J} (hst : s.streams[i]? = some st)
    (hmessage : st'.message = st.message) (hdispatched : st'.dispatched = st.dispatched)
    (hids : st'.finishIds = st.finishIds) (haborted : st.aborted = true → st'.aborted = true) :
    Apart { s with streams := s.streams.set i st' } := by
  have hgrows : st.Grows st' := ⟨hmessage, hdispatched ▸ List.prefix_rfl, hids ▸ List.prefix_rfl⟩
  obtain ⟨href, hpairs⟩ := h.carry (extend_set hst hgrows)
  exact ⟨h.opened.set hst haborted (hdispatched ▸ h.opened.startsTurn i st hst),
    h.turn.set hst hmessage (hdispatched.trans (List.append_nil _).symm) (List.forall_mem_nil _)
      (Or.inl rfl), href, hpairs⟩

theorem modify_stream {ss : List (OpenStream J)} {i : Nat} {st : OpenStream J}
    (hst : ss[i]? = some st) (f : OpenStream J → OpenStream J) :
    ss.modify i f = ss.set i (f st) := by
  rw [List.modify_eq_set_getElem?, hst]
  rfl

/-- Aborting leaves no stream that may still read. -/
theorem Apart.abort (h : s.Apart) : Apart { s.abortCurrent with abortRef := none } ∧
    s.abortCurrent.streams.length = s.streams.length := by
  unfold abortCurrent
  split
  · rename_i hnone
    exact ⟨⟨hnone ▸ h.opened, h.turn, h.ref, h.pairs⟩, rfl⟩
  · rename_i i hi
    have hlt : i < s.streams.length := by
      have hlast := h.opened.last i hi
      omega
    have hst : s.streams[i]? = some s.streams[i] := List.getElem?_eq_getElem hlt
    rw [modify_stream hst]
    have hset : Apart { s with
        streams := s.streams.set i { s.streams[i] with aborted := true } } :=
      h.set hst rfl rfl rfl fun _ => rfl
    exact ⟨⟨h.opened.abort hst hi rfl rfl, hset.turn, hset.ref, hset.pairs⟩, List.length_set⟩

theorem Apart.resolve (h : s.Apart) (i : Nat) (text : Text) : (s.resolve i text).Apart := by
  cases hst : s.streams[i]? with
  | none =>
    have hsame : s.resolve i text = s := by
      rw [Sends.resolve, List.modify_eq_set_getElem?, hst]
      rfl
    rwa [hsame]
  | some st =>
    rw [Sends.resolve, modify_stream hst]
    split
    · exact h.set hst rfl rfl rfl id
    · exact h.set hst rfl rfl rfl id

theorem Apart.flush (h : s.Apart) : s.flush.Apart where
  opened := h.opened
  turn := h.turn
  ref turn hturn := by
    obtain ⟨k, st, hk, hst, hactions⟩ := h.turn turn hturn
    exact ⟨k, st, hk, hst, st.dispatched, List.prefix_rfl, hactions⟩
  pairs := h.pairs

theorem latest_dispatch (h : StreamHook J) (action : ChatAction J) :
    (h.dispatch action).latest = reducer h.latest action := by
  rw [StreamHook.latest, StreamHook.dispatch, List.foldl_append]
  rfl

@[simp] theorem abortCurrent_hook (s : Sends J) : s.abortCurrent.hook = s.hook := by
  unfold abortCurrent
  split <;> rfl

@[simp] theorem abortCurrent_rendered (s : Sends J) : s.abortCurrent.rendered = s.rendered := by
  unfold abortCurrent
  split <;> rfl

theorem Apart.stop (h : s.Apart) : s.stop.Apart where
  opened := h.abort.1.opened
  turn turn hturn := by
    rw [Sends.stop, latest_dispatch] at hturn
    cases hturn
  ref := by simpa [Sends.stop, StreamHook.dispatch] using h.abort.1.ref
  pairs := by simpa [Sends.stop, StreamHook.dispatch, OwnPairs] using h.abort.1.pairs

theorem Apart.sendMessage (h : s.Apart) (signedIn : Bool) (m : SentMessage) :
    (s.sendMessage signedIn m).Apart := by
  unfold Sends.sendMessage
  split
  · obtain ⟨habort, hlength⟩ := h.abort
    obtain ⟨href, hpairs⟩ := habort.carry (extend_append _ [.new m])
    rw [abortCurrent_hook] at href hpairs
    refine ⟨hlength ▸ habort.opened.push m, fun turn hturn => ?_,
      by simpa [StreamHook.sendMessage, StreamHook.dispatch] using href, hpairs⟩
    refine ⟨s.abortCurrent.streams.length, .new m, by simp, by simp, ?_⟩
    have hlatest : (s.hook.sendMessage m).latest = m.started := latest_dispatch s.hook _
    rw [← hturn]
    exact congrArg ChatState.activeTurn hlatest.symm
  · exact h

/-! ## A chunk -/

/-- **What handling a chunk does.** -/
theorem receive_spec (codec : JsonCodec M J) (tz : Text) (now : Time) (s : Sends J)
    (st : OpenStream J) (text : Text) :
    ∃ actions pairs, Handled codec tz now (splitSseBlocks text st.leftover).1 s.hook
        (s.received codec tz now st text) actions pairs ∧
      ((∀ event ∈ (splitSseBlocks text st.leftover).1,
        acts codec s.hook.activeTurnRef event = false) → actions = [] ∧ pairs = []) := by
  obtain ⟨actions, pairs, hh⟩ := handled_foldl codec tz now (splitSseBlocks text st.leftover).1
    { s.hook with leftover := (splitSseBlocks text st.leftover).2 }
  refine ⟨actions, pairs, ⟨hh.queue, hh.completed, hh.state, hh.ref, hh.startsTurn, hh.pairs⟩,
    fun hidle => ?_⟩
  have hsame := foldl_route_of_idle tz now
    { s.hook with leftover := (splitSseBlocks text st.leftover).2 } hidle
  have hqueue := (congrArg StreamHook.queue hsame).symm.trans hh.queue
  have hcompleted := (congrArg StreamHook.completed hsame).symm.trans hh.completed
  exact ⟨List.self_eq_append_right.1 hqueue, List.self_eq_append_right.1 hcompleted⟩

/-- The handlers of one stream have acted: from the last send, or while no turn is active; a pair
was made only from a turn of that send. -/
theorem Apart.receive (h : s.Apart) {i : Nat} {st st' : OpenStream J}
    (hst : s.streams[i]? = some st) {now : Time} {events : List SseEvent} {hook : StreamHook J}
    {actions : List (ChatAction J)} {pairs : List (ServerMessage J × ServerMessage J)}
    (hh : Handled codec tz now events s.hook hook actions pairs)
    (hmessage : st'.message = st.message) (hdispatched : st'.dispatched = st.dispatched ++ actions)
    (hids : st'.finishIds = st.finishIds ++ finishIds codec events)
    (haborted : st.aborted = true → st'.aborted = true)
    (hfrom : actions = [] ∨ i + 1 = s.streams.length ∨ s.hook.latest.activeTurn = none)
    (hpairs : pairs = [] ∨ s.rendered = i + 1) :
    Apart { s with hook := hook, streams := s.streams.set i st' } := by
  have hstarts := h.opened.startsTurn i st hst
  have hgrows : st.Grows st' := ⟨hmessage, hdispatched ▸ List.prefix_append _ _,
    hids ▸ List.prefix_append _ _⟩
  obtain ⟨href, hcompleted⟩ := h.carry (extend_set hst hgrows)
  refine ⟨h.opened.set hst haborted ?_, ?_, ?_, ?_⟩
  · rw [hdispatched]
    exact List.forall_mem_append.2 ⟨hstarts, hh.startsTurn⟩
  · simp only [hh.latest]
    exact h.turn.set hst hmessage hdispatched hh.startsTurn hfrom
  · simp only [hh.ref]
    exact href
  · simp only [OwnPairs, hh.completed]
    refine List.forall_mem_append.2 ⟨hcompleted, fun pair hpair => ?_⟩
    obtain ⟨turn, id, hturn, hid, rfl⟩ := hh.pairs pair hpair
    have hrendered := hpairs.resolve_left (List.ne_nil_of_mem hpair)
    obtain ⟨k, st₁, hk, hst₁, before, hbefore, hbuilt⟩ := h.ref turn hturn
    obtain rfl : k = i := by omega
    obtain rfl := Option.some.inj (hst.symm.trans hst₁)
    have hturnMessage := turnOf_message (fun a ha => hstarts a (hbefore.subset ha)) hbuilt
    refine ⟨st', List.mem_of_getElem? (List.getElem?_set_self (List.getElem?_eq_some_iff.1 hst).1),
      ?_, ?_, ?_, before, turn, hbefore.trans hgrows.dispatched, hmessage ▸ hbuilt, rfl⟩
    · rw [hmessage, ← hturnMessage]
      rfl
    · rw [hmessage, ← hturnMessage]
      rfl
    · rw [hids]
      exact List.mem_append_right _ hid

/-- A step whose chunk is handled in time, read off the condition. -/
theorem inTime_deliver {i : Nat} {now : Time} {st : OpenStream J} {text : Text}
    (hst : s.streams[i]? = some st) (hpending : st.pending = some text)
    (h : s.inTime codec (.deliver i now) = true) :
    (∀ event ∈ (splitSseBlocks text st.leftover).1,
        acts codec s.hook.activeTurnRef event = false) ∨
      ((i + 1 = s.streams.length ∨ s.hook.latest.activeTurn = none) ∧
        (finishIds codec (splitSseBlocks text st.leftover).1 = [] ∨
          s.hook.activeTurnRef = none ∨ s.rendered = i + 1)) := by
  simpa [inTime, hst, hpending, or_assoc] using h

theorem Apart.deliver (h : s.Apart) {i : Nat} {now : Time}
    (htime : s.inTime codec (.deliver i now) = true) : (s.deliver codec tz i now).Apart := by
  unfold Sends.deliver
  split
  · exact h
  rename_i st hst
  split
  · exact h
  rename_i text hpending
  obtain ⟨actions, pairs, hh, hnone⟩ := receive_spec codec tz now s st text
  have hcases := inTime_deliver hst hpending htime
  simp only [hh.queue, List.drop_left]
  refine h.receive hst hh rfl rfl rfl id ?_ ?_
  · rcases hcases with hidle | ⟨hlast, -⟩
    · exact Or.inl (hnone hidle).1
    · exact Or.inr hlast
  · rcases hcases with hidle | ⟨-, hempty | hnull | hrendered⟩
    · exact Or.inl (hnone hidle).2
    · exact Or.inl (hh.pairs_eq_nil (Or.inl hempty))
    · exact Or.inl (hh.pairs_eq_nil (Or.inr hnull))
    · exact Or.inr hrendered

/-- A stream that throws without having been aborted is the last. -/
theorem Apart.fail (codec : JsonCodec M J) (tz : Text) (h : s.Apart) (i : Nat) (message : Text) :
    (s.fail i message).Apart := by
  unfold Sends.fail
  split
  · exact h
  rename_i st hst
  split
  · exact h
  split
  · exact h.set hst rfl rfl rfl id
  · rename_i hopen
    have hlast := h.opened.last i (h.opened.current i st hst (Bool.eq_false_iff.2 hopen))
    have hh : Handled codec tz 0 [] s.hook
        (s.hook.dispatch (.packetError "stream_failed".toList message))
        [.packetError "stream_failed".toList message] [] :=
      ⟨rfl, (List.append_nil _).symm, rfl, rfl, by simp [ChatAction.startsTurn], by simp⟩
    exact h.receive hst hh rfl rfl (List.append_nil _).symm id (Or.inr (Or.inl hlast)) (Or.inl rfl)

/-- **One step.** -/
theorem Apart.step (h : s.Apart) {e : SendEvent} (htime : s.inTime codec e = true) :
    (s.step codec tz e).Apart := by
  cases e with
  | send signedIn m => exact h.sendMessage signedIn m
  | stop => exact h.stop
  | resolve i text => exact h.resolve i text
  | deliver i now => exact h.deliver htime
  | fail i message => exact h.fail codec tz i message
  | flush => exact h.flush

end Sends

/-! ## Later turns -/

section Later

variable {codec : JsonCodec M J} {tz : Text} {now : Time} {events : List SseEvent}
  {h : StreamHook J}

theorem leaveTurn_of_idle (hidle : ∀ event ∈ events, acts codec h.activeTurnRef event = false) :
    LeaveTurn codec tz now h events := by
  induction events with
  | nil => trivial
  | cons event events ih =>
    rw [List.forall_mem_cons] at hidle
    rw [LeaveTurn, route_of_idle tz now h hidle.1]
    exact ⟨fun _ => rfl, ih hidle.2⟩

/-- No packet begins a turn. -/
theorem leaveTurn_of_none (hnone : h.latest.activeTurn = none) :
    LeaveTurn codec tz now h events := by
  induction events generalizing h with
  | nil => trivial
  | cons event events ih =>
    obtain ⟨actions, pairs, hh⟩ := handled_route codec tz now h event
    refine ⟨fun hsome => ?_, ih ?_⟩
    · rw [hnone] at hsome
      cases hsome
    · rw [hh.latest]
      exact foldl_reducer_none hnone hh.startsTurn

theorem leavesLaterTurn_of_inTime {s : Sends J} {e : SendEvent} (htime : s.inTime codec e = true) :
    LeavesLaterTurn codec tz s e := by
  cases e with
  | deliver i now =>
    intro st text hst hpending hlater
    rcases Sends.inTime_deliver hst hpending htime with hidle | ⟨hlast | hnone, -⟩
    · exact leaveTurn_of_idle hidle
    · omega
    · exact leaveTurn_of_none hnone
  | _ => trivial

end Later

/-! ## Runs -/

/-- **Chunks handled in time keep the sends apart.** When every chunk of a run on which a handler
acts comes from the last send or while no turn is active, and every `finish` while the ref holds
nothing or a turn of its own send: no chunk of a superseded send changes a later turn, the active
turn is always what the last send made of it, and every pair handed over has the text, the assistant
id and the events of one send. -/
theorem sends_kept_apart (codec : JsonCodec M J) (tz : Text) (es : List SendEvent)
    (h : ∀ p ∈ Runs.steps (Sends.step codec tz) .start es, p.1.inTime codec p.2 = true) :
    (∀ p ∈ Runs.steps (Sends.step codec tz) .start es, LeavesLaterTurn codec tz p.1 p.2) ∧
      ∀ s ∈ Runs.states (Sends.step codec tz) .start es,
        OwnTurn s.hook.latest s.streams ∧ s.OwnPairs := by
  refine ⟨fun p hp => leavesLaterTurn_of_inTime (h p hp), fun s hs => ?_⟩
  have hapart : s.Apart := Runs.inv_states_of_steps (C := fun s e => s.inTime codec e = true)
    (fun s e hs he => hs.step he) Sends.apart_start h s hs
  exact ⟨hapart.turn, hapart.pairs⟩

def nextMessage : SentMessage := ⟨4, "bye".toList, 9⟩

/-- The first chunk of the sample stream, and the rest of it. -/
def firstChunk : Text := wireText [sampleFrame sampleStart, sampleFrame (sampleDelta ['a'])]

def lastChunk : Text := wireText [sampleFrame (sampleDelta ['b']), sampleFrame sampleFinish]

/-- Every chunk is handled before the next send. -/
def timelySends : List SendEvent :=
  [.send true sampleMessage, .flush, .resolve 0 firstChunk, .deliver 0 5, .flush,
    .resolve 0 lastChunk, .deliver 0 6, .flush, .send true nextMessage, .stop]

theorem sends_kept_apart_timely :
    (∀ p ∈ Runs.steps (Sends.step sampleCodec []) .start timelySends,
        LeavesLaterTurn sampleCodec [] p.1 p.2) ∧
      ∀ s ∈ Runs.states (Sends.step sampleCodec []) .start timelySends,
        OwnTurn s.hook.latest s.streams ∧ s.OwnPairs :=
  sends_kept_apart sampleCodec [] timelySends (by decide +kernel)

/-- Its read has resolved when the next message is sent. -/
def beforeLate : List SendEvent :=
  [.send true sampleMessage, .flush, .resolve 0 firstChunk, .deliver 0 5, .flush,
    .resolve 0 lastChunk, .send true nextMessage, .flush]

/-- The delta `b` changes the turn of the next message, and `finish` hands over the next message
with the assistant id of the first. -/
theorem sends_kept_apart_late :
    ¬ (∀ p ∈ Runs.steps (Sends.step sampleCodec []) .start (beforeLate ++ [.deliver 0 6]),
        LeavesLaterTurn sampleCodec [] p.1 p.2) ∧
      ¬ ∀ s ∈ Runs.states (Sends.step sampleCodec []) .start (beforeLate ++ [.deliver 0 6]),
        s.OwnPairs := by
  constructor
  · intro h
    have hlate := h (Runs.run (Sends.step sampleCodec []) .start beforeLate, .deliver 0 6)
      (by rw [Runs.steps_append]; simp)
    generalize hs : Runs.run (Sends.step sampleCodec []) .start beforeLate = s at hlate
    obtain ⟨hstreams, hbefore, hafter⟩ : s.streams.map (fun st => (st.pending, st.leftover)) =
          [(some lastChunk, []), (none, [])] ∧
        s.hook.latest.activeTurn.map (fun turn => turn.events.keys) = some [] ∧
        (s.hook.route sampleCodec [] 6 (sse sampleCodec (sampleDelta ['b']))).latest.activeTurn.map
          (fun turn => turn.events.keys) = some [1] := by
      rw [← hs]
      decide +kernel
    have hlength := congrArg List.length hstreams
    rw [List.length_map] at hlength
    obtain ⟨st, rest, hcons, hst, -⟩ := List.map_eq_cons_iff.1 hstreams
    obtain ⟨hpending, hleftover⟩ := Prod.mk.inj hst
    have hleave := hlate st lastChunk (by rw [hcons]; rfl) hpending
      (by rw [hlength]; exact Nat.one_lt_two)
    have hevents : (splitSseBlocks lastChunk []).1 =
        [sse sampleCodec (sampleDelta ['b']), sse sampleCodec sampleFinish] := by decide +kernel
    rw [hleftover, hevents] at hleave
    have hactive : s.hook.latest.activeTurn.isSome = true := by
      rw [← Option.isSome_map, hbefore]
      rfl
    rw [hleave.1 hactive, hbefore] at hafter
    cases hafter
  · intro h
    have howned := h _ (Runs.run_mem_states _ _ _)
    have hmixed : ∃ pair ∈ (Runs.run (Sends.step sampleCodec []) .start
        (beforeLate ++ [.deliver 0 6])).hook.completed,
        ∀ st ∈ (Runs.run (Sends.step sampleCodec []) .start
          (beforeLate ++ [.deliver 0 6])).streams,
          pair.1.content = st.message.userText → pair.2.id ∉ st.finishIds := by decide +kernel
    obtain ⟨pair, hpair, hnone⟩ := hmixed
    obtain ⟨st, hst, -, hcontent, hid, -⟩ := howned pair hpair
    exact hnone st hst hcontent hid

end MeJournal
