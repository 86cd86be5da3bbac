import MeJournal.Mobile.ChatSession
import MeJournal.Mobile.Sends

/-!
# The hook of the chat screen

`mobile/lib/chat/use-chat.ts`: the session hook, the stream hook and the `commitTurn` of the
history hook, which writes to the cache of the session of the render it was made in.  A render
shows what was set before it, and its effects put the turn and the `commitTurn` of that render into
the refs of the stream hook.

* `keptHome_step` — what the refs and the state of the two hooks have to do with each other.
* `turns_stay_in_session` — a finished turn is written to the session that its message was sent to.
-/

namespace MeJournal

namespace Composer

variable {M J : Type}

/-- `useChat`. -/
structure Screen (J : Type) where
  session : ChatSession
  sends : Sends J
  /-- The session of the `commitTurn` that `onTurnCompleteRef` holds. -/
  commitSession : Option UUID
  /-- The sends that wait for `ensureSession` no more, by the number of their calls. -/
  resumed : List Nat
  /-- What `commitTurn` has written, with the session of the cache. -/
  commits : List (UUID × ServerMessage J × ServerMessage J)
  /-- The messages of `stream.sendMessage`, with their sessions. -/
  sentTo : List (SentMessage × UUID)

inductive Event where
  /-- `sendMessage` of a render, up to `await ensureSession()`. -/
  | sendMessage (render : Nat)
  /-- The answer to a `POST /sessions`. -/
  | answer (post : Nat) (row : Option UUID)
  | settle (post : Nat)
  /-- A send goes on, its call of `ensureSession` having resolved. -/
  | resume (call : Nat) (signedIn : Bool) (m : SentMessage)
  | newSession
  | stop
  | resolve (i : Nat) (text : Text)
  | deliver (i : Nat) (now : Time)
  | fail (i : Nat) (message : Text)
  /-- A render, and its effects. -/
  | render

namespace Screen

def start : Screen J := ⟨.start, .start, none, [], [], []⟩

/-- The id that a call of `ensureSession` has resolved to, while its send waits. -/
def resolved (s : Screen J) (call : Nat) : Option UUID :=
  if call ∈ s.resumed then none
  else
    match s.session.calls[call]?.bind s.session.outcome with
    | some (.ok id) => some id
    | _ => none

/-- `sendMessage`, after `await ensureSession()`. -/
def resume (s : Screen J) (call : Nat) (signedIn : Bool) (m : SentMessage) : Screen J :=
  match s.resolved call with
  | none => s
  | some id =>
    { s with
      sends := s.sends.sendMessage signedIn m
      resumed := call :: s.resumed
      sentTo := if signedIn then (m, id) :: s.sentTo else s.sentTo }

/-- `newSession`. -/
def newSession (s : Screen J) : Screen J :=
  { s with sends := s.sends.stop, session := s.session.clearSession }

/-- What the calls of `commitTurn` write; without a session that is nothing. -/
def written (session : Option UUID) (pairs : List (ServerMessage J × ServerMessage J)) :
    List (UUID × ServerMessage J × ServerMessage J) :=
  match session with
  | none => []
  | some id => pairs.map fun pair => (id, pair)

/-- The handlers of a chunk, with the calls of `commitTurn`. -/
def deliver (codec : JsonCodec M J) (tz : Text) (s : Screen J) (i : Nat) (now : Time) : Screen J :=
  let sends := s.sends.deliver codec tz i now
  let pairs := sends.hook.completed.drop s.sends.hook.completed.length
  { s with
    sends := sends
    commits := s.commits ++ written s.commitSession pairs }

def render (s : Screen J) : Screen J :=
  { s with
    session := s.session.rerender
    sends := s.sends.flush
    commitSession := s.session.sessionId }

def step (codec : JsonCodec M J) (tz : Text) (s : Screen J) : Event → Screen J
  | .sendMessage render => { s with session := s.session.ensureSession render }
  | .answer post row => { s with session := s.session.answer post row }
  | .settle post => { s with session := s.session.settle post }
  | .resume call signedIn m => s.resume call signedIn m
  | .newSession => s.newSession
  | .stop => { s with sends := s.sends.stop }
  | .resolve i text => { s with sends := s.sends.resolve i text }
  | .deliver i now => s.deliver codec tz i now
  | .fail i message => { s with sends := s.sends.fail i message }
  | .render => s.render

end Screen

/-- A send goes on while the session it has resolved to is the one that was set last, and a session
is set while no turn is active. -/
def Timely (s : Screen J) : Event → Prop
  | .answer post row => s.sends.hook.latest.activeTurn.isNone = true ∨
      (s.session.answer post row).sessionId = s.session.sessionId
  | .resume call _ _ => ∀ id ∈ s.resolved call, s.session.sessionId = some id
  | _ => True

instance (s : Screen J) : DecidablePred (Timely s)
  | .answer _ _ => inferInstanceAs (Decidable (_ ∨ _))
  | .resume call _ _ =>
    match h : s.resolved call with
    | none => isTrue (by simp [Timely, h])
    | some id => decidable_of_iff (s.session.sessionId = some id) (by simp [Timely, h])
  | .sendMessage _ | .settle _ | .newSession | .stop | .resolve _ _ | .deliver _ _ | .fail _ _
  | .render => isTrue trivial

/-! ## The invariant -/

/-- The turn's message was sent to the session. -/
def SentTo (sentTo : List (SentMessage × UUID)) (session : Option UUID) (turn : ActiveTurn J) :
    Prop :=
  ∃ id, session = some id ∧ (turn.message, id) ∈ sentTo

/-- The written pair is in the session that its user message was sent to. -/
def AtHome (sentTo : List (SentMessage × UUID))
    (commit : UUID × ServerMessage J × ServerMessage J) : Prop :=
  ∃ m, (m, commit.1) ∈ sentTo ∧ commit.2.1.id = m.clientMessageId ∧
    commit.2.1.content = m.userText

structure KeptHome (s : Screen J) : Prop where
  latest : ∀ turn ∈ s.sends.hook.latest.activeTurn, SentTo s.sentTo s.session.sessionId turn
  ref : ∀ turn ∈ s.sends.hook.activeTurnRef, SentTo s.sentTo s.commitSession turn
  written : s.commits.map Prod.snd = s.sends.hook.completed
  home : ∀ commit ∈ s.commits, AtHome s.sentTo commit

section Invariant

variable {codec : JsonCodec M J} {tz : Text} {s : Screen J}

theorem keptHome_start : KeptHome (Screen.start : Screen J) where
  latest := nofun
  ref := nofun
  written := rfl
  home _ hcommit := by cases hcommit

/-- An event that leaves the turns and what was written. -/
theorem KeptHome.same (h : KeptHome s) (session : ChatSession) (sends : Sends J)
    (hlatest : ∀ turn ∈ sends.hook.latest.activeTurn, SentTo s.sentTo session.sessionId turn)
    (href : sends.hook.activeTurnRef = s.sends.hook.activeTurnRef)
    (hcompleted : sends.hook.completed = s.sends.hook.completed) :
    KeptHome { s with session := session, sends := sends } where
  latest := hlatest
  ref turn hturn := h.ref turn (href ▸ hturn)
  written := h.written.trans hcompleted.symm
  home := h.home

/-- The actions of packets leave the turn's message. -/
theorem message_of_foldl {state : ChatState J} (actions : List (ChatAction J))
    (hstarts : ∀ a ∈ actions, a.startsTurn = false) {turn : ActiveTurn J}
    (hturn : turn ∈ (actions.foldl reducer state).activeTurn) :
    ∃ old ∈ state.activeTurn, old.message = turn.message := by
  cases hold : state.activeTurn with
  | none =>
    rw [foldl_reducer_none hold hstarts] at hturn
    cases hturn
  | some old =>
    refine ⟨old, rfl, (foldl_reducer_message hstarts (fun t ht => ?_) turn hturn).symm⟩
    rw [Option.some.inj (hold.symm.trans ht)]

theorem SentTo.of_message {sentTo : List (SentMessage × UUID)} {session : Option UUID}
    {old turn : ActiveTurn J} (h : SentTo sentTo session old)
    (hmessage : old.message = turn.message) : SentTo sentTo session turn := by
  obtain ⟨id, hid, hmem⟩ := h
  exact ⟨id, hid, hmessage ▸ hmem⟩

/-- The chunk's handlers act on the hook, or there is no chunk. -/
theorem deliver_hook (codec : JsonCodec M J) (tz : Text) (sends : Sends J) (i : Nat) (now : Time) :
    (sends.deliver codec tz i now).hook = sends.hook ∨
      ∃ events actions pairs, Handled codec tz now events sends.hook
        (sends.deliver codec tz i now).hook actions pairs := by
  unfold Sends.deliver
  split
  · exact Or.inl rfl
  · split
    · exact Or.inl rfl
    · rename_i st _ _ text _
      obtain ⟨actions, pairs, hh, -⟩ := Sends.receive_spec codec tz now sends st text
      exact Or.inr ⟨_, actions, pairs, hh⟩

theorem fail_hook (sends : Sends J) (i : Nat) (message : Text) :
    (sends.fail i message).hook = sends.hook ∨
      ∃ action : ChatAction J, action.startsTurn = false ∧
        (sends.fail i message).hook = sends.hook.dispatch action := by
  unfold Sends.fail
  split
  · exact Or.inl rfl
  · split
    · exact Or.inl rfl
    · split
      · exact Or.inl rfl
      · exact Or.inr ⟨_, rfl, rfl⟩

theorem ensureSession_sessionId (session : ChatSession) (render : Nat) :
    (session.ensureSession render).sessionId = session.sessionId := by
  unfold ChatSession.ensureSession
  split
  · rfl
  · rfl
  · split <;> rfl

theorem settle_sessionId (session : ChatSession) (post : Nat) :
    (session.settle post).sessionId = session.sessionId := by
  unfold ChatSession.settle
  split <;> rfl

theorem KeptHome.answer (h : KeptHome s) {post : Nat} {row : Option UUID}
    (htimely : Timely s (.answer post row)) :
    KeptHome (s.step codec tz (.answer post row)) := by
  refine h.same _ s.sends (fun turn hturn => ?_) rfl rfl
  rcases htimely with hnone | hsame
  · rw [Option.isNone_iff_eq_none.1 hnone] at hturn
    cases hturn
  · rw [hsame]
    exact h.latest turn hturn

theorem KeptHome.resume (h : KeptHome s) {call : Nat} {signedIn : Bool} {m : SentMessage}
    (htimely : Timely s (.resume call signedIn m)) :
    KeptHome (s.step codec tz (.resume call signedIn m)) := by
  simp only [Screen.step, Screen.resume]
  cases hresolved : s.resolved call with
  | none => exact h
  | some id =>
    cases signedIn with
    | false => exact ⟨h.latest, h.ref, h.written, h.home⟩
    | true =>
      have hgrows : ∀ entry ∈ s.sentTo, entry ∈ (m, id) :: s.sentTo :=
        fun _ => List.mem_cons_of_mem _
      refine ⟨fun turn hturn => ?_, fun turn hturn => ?_, h.written, fun commit hcommit => ?_⟩
      · have hlatest : (s.sends.hook.sendMessage m).latest = m.started :=
          Sends.latest_dispatch s.sends.hook _
        have hstarted : turn ∈ (s.sends.hook.sendMessage m).latest.activeTurn := hturn
        rw [hlatest] at hstarted
        cases hstarted
        exact ⟨id, htimely id hresolved, List.mem_cons_self⟩
      · obtain ⟨id', hid', hmem⟩ := h.ref turn hturn
        exact ⟨id', hid', hgrows _ hmem⟩
      · obtain ⟨m', hmem, hpair⟩ := h.home commit hcommit
        exact ⟨m', hgrows _ hmem, hpair⟩

/-- After `stop` no turn is active. -/
theorem latest_stop (sends : Sends J) : sends.stop.hook.latest.activeTurn = none := by
  rw [Sends.stop, Sends.latest_dispatch]
  rfl

theorem KeptHome.stop (h : KeptHome s) (session : ChatSession) :
    KeptHome { s with session := session, sends := s.sends.stop } := by
  refine h.same session s.sends.stop (fun turn hturn => ?_) rfl rfl
  rw [latest_stop] at hturn
  cases hturn

theorem KeptHome.fail (h : KeptHome s) (i : Nat) (message : Text) :
    KeptHome (s.step codec tz (.fail i message)) := by
  rcases fail_hook s.sends i message with hsame | ⟨action, hstarts, hdispatch⟩
  · exact h.same s.session _ (by rw [hsame]; exact h.latest) (by rw [hsame]) (by rw [hsame])
  · refine h.same s.session _ (fun turn hturn => ?_) (by rw [hdispatch]; rfl)
      (by rw [hdispatch]; rfl)
    rw [hdispatch, Sends.latest_dispatch] at hturn
    obtain ⟨old, hold, hmessage⟩ := message_of_foldl [action]
      (List.forall_mem_singleton.2 hstarts) hturn
    exact (h.latest old hold).of_message hmessage

/-- **A chunk is handled**, and its pairs are written. -/
theorem KeptHome.deliver (h : KeptHome s) (i : Nat) (now : Time) :
    KeptHome (s.deliver codec tz i now) := by
  have hnone : ∀ session, Screen.written session ([] : List (ServerMessage J × ServerMessage J)) =
      [] := fun session => by cases session <;> rfl
  unfold Screen.deliver
  rcases deliver_hook codec tz s.sends i now with hsame | ⟨events, actions, pairs, hh⟩
  · simp only [hsame, List.drop_length, hnone, List.append_nil]
    exact h.same s.session _ (by rw [hsame]; exact h.latest) (by rw [hsame]) (by rw [hsame])
  simp only [hh.completed, List.drop_left]
  refine ⟨fun turn hturn => ?_, ?_, ?_, ?_⟩
  · rw [hh.latest] at hturn
    obtain ⟨old, hold, hmessage⟩ := message_of_foldl actions hh.startsTurn hturn
    exact (h.latest old hold).of_message hmessage
  · rw [hh.ref]
    exact h.ref
  · rw [hh.completed, List.map_append, h.written]
    congr 1
    cases hcommit : s.commitSession with
    | some id => simp [Screen.written]
    | none =>
      -- without a session there is no turn in the ref, and so no pair
      have href : s.sends.hook.activeTurnRef = none := by
        refine Option.eq_none_iff_forall_not_mem.2 fun turn hturn => ?_
        obtain ⟨id, hid, -⟩ := h.ref turn hturn
        rw [hcommit] at hid
        cases hid
      rw [hh.pairs_eq_nil (Or.inr href)]
      rfl
  · rw [List.forall_mem_append]
    refine ⟨h.home, ?_⟩
    cases hcommit : s.commitSession with
    | none => exact List.forall_mem_nil _
    | some id =>
      refine List.forall_mem_map.2 fun pair hpair => ?_
      obtain ⟨turn, assistant, hturn, -, rfl⟩ := hh.pairs pair hpair
      obtain ⟨id', hid', hmem⟩ := h.ref turn hturn
      obtain rfl := Option.some.inj (hcommit.symm.trans hid')
      exact ⟨turn.message, hmem, rfl, rfl⟩

/-- **A render and its effects.** -/
theorem KeptHome.render (h : KeptHome s) : KeptHome s.render where
  latest := h.latest
  ref := h.latest
  written := h.written
  home := h.home

/-- **One event.** -/
theorem keptHome_step (h : KeptHome s) {e : Event} (he : Timely s e) :
    KeptHome (s.step codec tz e) := by
  cases e with
  | sendMessage render =>
    refine h.same _ s.sends ?_ rfl rfl
    rw [ensureSession_sessionId]
    exact h.latest
  | answer post row => exact h.answer he
  | settle post =>
    refine h.same _ s.sends ?_ rfl rfl
    rw [settle_sessionId]
    exact h.latest
  | resume call signedIn m => exact h.resume he
  | newSession => exact h.stop s.session.clearSession
  | stop => exact h.stop s.session
  | resolve i text => exact ⟨h.latest, h.ref, h.written, h.home⟩
  | deliver i now => exact h.deliver i now
  | fail i message => exact h.fail i message
  | render => exact h.render

end Invariant

/-- **A finished turn stays in its session.**  In every interleaving of sends, answers, chunks, new
conversations and renders in which a send goes on while its session is the current one, and no
session is set under an active turn, every pair that the stream hook hands over is written, in its
order, to the cache of the session that its user message was sent to. -/
theorem turns_stay_in_session (codec : JsonCodec M J) (tz : Text) (es : List Event)
    (htimely : ∀ p ∈ Runs.steps (Screen.step codec tz) Screen.start es, Timely p.1 p.2) :
    ∀ s ∈ Runs.states (Screen.step codec tz) Screen.start es,
      s.commits.map Prod.snd = s.sends.hook.completed ∧
        ∀ commit ∈ s.commits, AtHome s.sentTo commit := by
  intro s hs
  have h := Runs.inv_states_of_steps (I := KeptHome) (fun s e h he => keptHome_step h he)
    keptHome_start htimely s hs
  exact ⟨h.written, h.home⟩

/-- The stream of `twoDeltas` in three chunks, each rendered. -/
def streamEvents : List Event :=
  [.render, .resolve 0 (wireText [sampleFrame sampleStart, sampleFrame (sampleDelta ['a'])]),
    .deliver 0 5, .render, .resolve 0 (wireText [sampleFrame (sampleDelta ['b'])]), .deliver 0 6,
    .render, .resolve 0 (wireText [sampleFrame sampleFinish]), .deliver 0 7]

/-- A first send, which makes its session. -/
def firstSend : List Event :=
  [.sendMessage 0, .answer 0 (some 2), .settle 0, .resume 0 true sampleMessage] ++ streamEvents

theorem turns_stay_in_session_firstSend :
    let s := Runs.run (Screen.step sampleCodec []) Screen.start firstSend
    s.commits.map Prod.snd = s.sends.hook.completed ∧
      ∀ commit ∈ s.commits, AtHome s.sentTo commit :=
  turns_stay_in_session sampleCodec [] firstSend (by decide +kernel) _
    (Runs.run_mem_states _ _ _)

/-- A second tap before the first render makes another session; its answer comes under the turn of
the first, and the turn is written there. -/
def secondTap : List Event :=
  [.sendMessage 0, .answer 0 (some 2), .settle 0, .resume 0 true sampleMessage, .sendMessage 0,
    .answer 1 (some 4)] ++ streamEvents

example :
    (Runs.run (Screen.step sampleCodec []) Screen.start secondTap).commits.map Prod.fst = [4] ∧
      (Runs.run (Screen.step sampleCodec []) Screen.start secondTap).sentTo.map Prod.snd =
        [2] := by
  decide +kernel

end Composer

end MeJournal
