import MeJournal.Chat.Concurrent

/-!
# Requests that repeat a message id

Interleavings of chat requests, without deletions.  The agreement of the requests under one
`client_message_id` rests on `ux_messages_parent`: the live reply is unique, it stays, and a
`finish` is sent only for it.

* `chatMove_answers` — a move sends a `finish` only for the live reply.
* `chatMove_replays` — once there is a live reply, a request that is not past its lookup does
  not run the agent.
* `retries_agree` — the two along whole runs.
-/

namespace MeJournal

variable {M J : Type}

/-! ## Runs without deletions -/

/-- A chat request comes in, or one makes its next move. -/
inductive TurnEvent (M : Type) where
  | postChat (userId : UUID) (req : ChatRequest)
  | move (i : Nat) (input : MoveInput M)

def TurnEvent.toServerEvent : TurnEvent M → ServerEvent M
  | .postChat userId req => .postChat userId req
  | .move i input => .move i input

def turnStep (codec : ToolCodec M J) (historyTurns : Nat) (s : Server M J) (e : TurnEvent M) :
    Server M J :=
  serverStep codec historyTurns s e.toServerEvent

/-! ## The property -/

/-- The ids of the `finish` packets sent. -/
def ChatProc.finishIds (p : ChatProc M J) : List UUID := p.emitted.filterMap Packet.finishId?

/-- The database and the requests with the id `cmid` agree on the reply. -/
structure Agreed (cmid : UUID) (s : Server M J) : Prop where
  userRow : s.shared.messages.rows.countP (fun m => m.id = cmid && m.role = .user) ≤ 1
  reply : s.shared.messages.rows.countP (fun m => m.repliesTo cmid) ≤ 1
  finish : ∀ p, .chat p ∈ s.procs → p.req.clientMessageId = cmid → ∀ id ∈ p.finishIds,
    ∃ m ∈ s.shared.messages.rows, m.repliesTo cmid ∧ m.id = id
  same : ∀ p q, .chat p ∈ s.procs → .chat q ∈ s.procs → p.req.clientMessageId = cmid →
    q.req.clientMessageId = cmid → ∀ id ∈ p.finishIds, ∀ id' ∈ q.finishIds, id = id'

/-- A request with the id was sent a `finish`. -/
def Answered (cmid : UUID) (s : Server M J) : Prop :=
  ∃ p, .chat p ∈ s.procs ∧ p.req.clientMessageId = cmid ∧ p.finishIds ≠ []

/-! ## The packets of a replay -/

theorem replayTool_no_finish (codec : ToolCodec M J) (e : ToolEvent J) :
    Gen.Within (fun p => p.finishId? = none) (fun _ => True) (replayTool codec e) := by
  have hcall : Gen.Within (fun p => p.finishId? = none) (fun _ => True) (replayCall codec e) := by
    unfold replayCall
    split
    · exact Gen.within_pure _
    · exact (Gen.within_ofExcept fun _ _ => trivial).bind fun _ => Gen.within_emit rfl
  have hend : Gen.Within (fun p => p.finishId? = none) (fun _ => True) (replayEnd codec e) := by
    unfold replayEnd
    split
    · exact Gen.within_pure _
    · exact Gen.within_emit rfl
    · exact (Gen.within_ofExcept fun _ _ => trivial).bind fun _ => Gen.within_emit rfl
  unfold replayTool
  split
  · refine Gen.Within.bind (Gen.within_emit ?_) fun _ => hcall.bind fun _ => hend
    rfl
  · exact Gen.within_raise trivial

theorem replayEvents_no_finish (codec : ToolCodec M J) (es : List (Event J)) :
    Gen.Within (fun p => p.finishId? = none) (fun _ => True) (replayEvents codec es) := by
  induction es with
  | nil => exact Gen.within_pure _
  | cons e es ih =>
    cases e with
    | text e =>
      refine Gen.Within.bind (Gen.within_emit ?_) fun _ => ih
      rfl
    | tool e => exact (replayTool_no_finish codec e).bind fun _ => ih

/-- **A replay finishes with the id of the cached row**, if it finishes. -/
theorem replayStream_finish (codec : ToolCodec M J) (cached : Message J) :
    Gen.Within (fun p => ∀ id, p.finishId? = some id → id = cached.id) (fun _ => True)
      (replayStream codec cached) := by
  refine Gen.Within.bind (Gen.within_emit ?_) fun _ => Gen.Within.bind ?_ fun _ =>
    Gen.within_emit ?_
  · intro id hid
    cases hid
  · refine fun s => ⟨fun p hp id hid => ?_, fun _ _ => trivial⟩
    rw [(replayEvents_no_finish codec _ s).1 p hp] at hid
    cases hid
  · intro id hid
    exact (Option.some.inj hid).symm

/-! ## What a move sends -/

theorem mem_finishIds {p : ChatProc M J} {id : UUID} :
    id ∈ p.finishIds ↔ ∃ packet ∈ p.emitted, packet.finishId? = some id :=
  List.mem_filterMap

@[simp] theorem chatMove_req (codec : ToolCodec M J) (historyTurns : Nat) (input : MoveInput M)
    (p : ChatProc M J) (db : ChatDb J) : (p.move codec historyTurns input db).1.req = p.req := by
  unfold ChatProc.move
  split
  · split <;> rfl
  · split <;> rfl
  · split <;> rfl
  · simp only
    split <;> rfl
  · split <;> rfl
  · rfl

/-- Messages stay. -/
theorem chatMove_mem (codec : ToolCodec M J) (historyTurns : Nat) (input : MoveInput M)
    (p : ChatProc M J) {db : ChatDb J} {m : Message J} (hm : m ∈ db.messages.rows) :
    m ∈ (p.move codec historyTurns input db).2.messages.rows := by
  rcases (chatMove_db codec historyTurns input p db).2 with hrows | ⟨n, _, hrows⟩
  · rw [hrows]
    exact hm
  · rw [hrows]
    exact List.mem_append_left _ hm

/-- There is a live reply to `cmid`. -/
def HasReply (cmid : UUID) (db : ChatDb J) : Prop := ∃ m ∈ db.messages.rows, m.repliesTo cmid

/-- Every `finish` sent is for the live reply; a row to be inserted is a reply. -/
structure Answers (db : ChatDb J) (p : ChatProc M J) : Prop where
  finish : ∀ id ∈ p.finishIds,
    ∃ m ∈ db.messages.rows, m.repliesTo p.req.clientMessageId ∧ m.id = id
  row : ∀ session row, p.pc = .streamed session row → row.parentMessageId = p.req.clientMessageId

/-- Other requests' moves keep the messages, hence the answers. -/
theorem Answers.mono {db db' : ChatDb J} {p : ChatProc M J} (h : Answers db p)
    (hsub : ∀ m ∈ db.messages.rows, m ∈ db'.messages.rows) : Answers db' p := by
  refine ⟨fun id hid => ?_, h.row⟩
  obtain ⟨m, hm, hreply⟩ := h.finish id hid
  exact ⟨m, hsub m hm, hreply⟩

/-- A request that goes on to anything but an insert. -/
theorem Answers.goto {db : ChatDb J} {p : ChatProc M J} (h : Answers db p) {pc : ChatPc J}
    (hpc : ∀ session row, pc ≠ .streamed session row) : Answers db { p with pc := pc } :=
  ⟨h.finish, fun session row hrow => absurd hrow (hpc session row)⟩

theorem answers_new (db : ChatDb J) (userId : UUID) (req : ChatRequest) :
    Answers db (ChatProc.new userId req : ChatProc M J) :=
  ⟨nofun, nofun⟩

/-- **A move sends a `finish` only for the live reply.** -/
theorem chatMove_answers (codec : ToolCodec M J) (historyTurns : Nat) (input : MoveInput M)
    {p : ChatProc M J} {db : ChatDb J} (h : Answers db p) :
    Answers (p.move codec historyTurns input db).2 (p.move codec historyTurns input db).1 := by
  have hmono : Answers (p.move codec historyTurns input db).2 p :=
    h.mono fun m hm => chatMove_mem codec historyTurns input p hm
  revert hmono
  unfold ChatProc.move
  split
  · split <;> exact fun hmono => hmono.goto (by simp)
  · split <;> exact fun hmono => hmono.goto (by simp)
  · split
    · rename_i cached hcached
      obtain ⟨hmem, hreply⟩ := findAssistant_eq_some.1 hcached
      refine fun _ => ⟨fun id hid => ?_, nofun⟩
      obtain ⟨packet, hpacket, hfinish⟩ := mem_finishIds.1 hid
      have hid' := (replayStream_finish codec cached ()).1 packet hpacket id hfinish
      exact ⟨cached, hmem, hreply, hid'.symm⟩
    · exact fun hmono => hmono.goto (by simp)
  · rename_i session hpc
    have hnone := List.filterMap_eq_nil_iff.2 (finish_not_mem_streamBody codec.dump
      (chatTurn p.userId session p.req) input.env.assistantMessageId
      (input.agent.packets (agentInput historyTurns input.env p.userId p.req db)))
    simp only
    split
    · rename_i emitted raised hbody
      rw [hbody] at hnone
      refine fun _ => ⟨fun id hid => ?_, nofun⟩
      rw [ChatProc.finishIds, hnone] at hid
      cases hid
    · rename_i emitted row raised hbody
      have hrow : row.parentMessageId = p.req.clientMessageId :=
        (streamBody_row_id (congrArg (fun r => r.2.1) hbody)).2.1
      rw [hbody] at hnone
      refine fun _ => ⟨fun id hid => ?_, ?_⟩
      · rw [ChatProc.finishIds, hnone] at hid
        cases hid
      · rintro session' row' ⟨⟩
        exact hrow
  · rename_i session row hpc
    split
    · exact fun hmono => hmono.goto (by simp)
    · rename_i db' hrecord
      obtain ⟨_, _, _, _, hrows, _⟩ := recordAssistantMessage_eq_some hrecord
      refine fun hmono => ⟨fun id hid => ?_, nofun⟩
      obtain ⟨packet, hpacket, hfinish⟩ := mem_finishIds.1 hid
      rcases List.mem_append.1 hpacket with hpacket | hpacket
      · exact hmono.finish id (mem_finishIds.2 ⟨packet, hpacket, hfinish⟩)
      · cases List.mem_singleton.1 hpacket
        refine ⟨assistantMessage input.env row, by simp [hrows], ⟨?_, rfl⟩, Option.some.inj hfinish⟩
        exact congrArg some (h.row session row hpc)
  · exact fun hmono => hmono

/-- A request that is not past its lookup, and has not run the agent. -/
def Waiting (p : ChatProc M J) : Prop := p.invoked = false ∧ ∀ session, p.pc ≠ .noReply session

/-- **Once there is a live reply**, a waiting request will not run the agent. -/
theorem chatMove_replays (codec : ToolCodec M J) (historyTurns : Nat) (input : MoveInput M)
    {p : ChatProc M J} {db : ChatDb J} (hreply : HasReply p.req.clientMessageId db)
    (h : Waiting p) : Waiting (p.move codec historyTurns input db).1 := by
  obtain ⟨hinvoked, hpc⟩ := h
  unfold ChatProc.move
  split
  · split <;> exact ⟨hinvoked, nofun⟩
  · split <;> exact ⟨hinvoked, nofun⟩
  · split
    · exact ⟨hinvoked, nofun⟩
    · rename_i hnone
      obtain ⟨m, hm, hmreply⟩ := hreply
      exact absurd hmreply (findAssistant_eq_none.1 hnone m hm)
  · rename_i session hnoReply
    exact absurd hnoReply (hpc session)
  · split <;> exact ⟨hinvoked, nofun⟩
  · exact ⟨hinvoked, hpc⟩

/-! ## Runs -/

/-- Every process is a chat request, and sends a `finish` only for the live reply. -/
def AllAnswer (_ : Nat) (db : ChatDb J) (p : ServerProc M J) : Prop :=
  ∃ c, p = .chat c ∧ Answers db c

theorem inv_turnStep (codec : ToolCodec M J) (historyTurns : Nat) {s : Server M J}
    {e : TurnEvent M} (h : Interleaving.Inv (fun _ => True) AllAnswer s) :
    Interleaving.Inv (fun _ => True) AllAnswer (turnStep codec historyTurns s e) := by
  refine Interleaving.inv_step h ?_ ?_
  · intro p hp
    cases e with
    | postChat userId req =>
      cases hp
      exact ⟨_, rfl, answers_new _ _ _⟩
    | move i input => cases hp
  · intro i input p hev hp
    cases e with
    | postChat => cases hev
    | move i' input' =>
      cases hev
      obtain ⟨c, rfl, hc⟩ := h.procs i p hp
      refine ⟨trivial, ⟨_, rfl, chatMove_answers codec historyTurns input hc⟩, ?_⟩
      intro j q _ hq
      obtain ⟨d, rfl, hd⟩ := h.procs j q hq
      exact ⟨d, rfl, hd.mono fun m hm => chatMove_mem codec historyTurns input c hm⟩

/-- The processes from index `k` on with the id `cmid` are waiting. -/
def LateWait (k : Nat) (cmid : UUID) (i : Nat) (_ : ChatDb J) (p : ServerProc M J) : Prop :=
  ∃ c, p = .chat c ∧ (k ≤ i → c.req.clientMessageId = cmid → Waiting c)

theorem late_turnStep (codec : ToolCodec M J) (historyTurns : Nat) {k : Nat} {cmid : UUID}
    {s : Server M J} {e : TurnEvent M} (h : Interleaving.Inv (HasReply cmid) (LateWait k cmid) s) :
    Interleaving.Inv (HasReply cmid) (LateWait k cmid) (turnStep codec historyTurns s e) := by
  refine Interleaving.inv_step h ?_ ?_
  · intro p hp
    cases e with
    | postChat userId req =>
      cases hp
      exact ⟨_, rfl, fun _ _ => ⟨rfl, nofun⟩⟩
    | move i input => cases hp
  · intro i input p hev hp
    cases e with
    | postChat => cases hev
    | move i' input' =>
      cases hev
      obtain ⟨c, rfl, hc⟩ := h.procs i p hp
      obtain ⟨m, hm, hreply⟩ := h.shared
      refine ⟨⟨m, chatMove_mem codec historyTurns input c hm, hreply⟩, ⟨_, rfl, ?_⟩, ?_⟩
      · intro hi hid
        rw [chatMove_req] at hid
        exact chatMove_replays codec historyTurns input (hid ▸ h.shared) (hc hi hid)
      · intro j q _ hq
        exact h.procs j q hq

/-- The requests answer with the live reply, so they agree. -/
theorem agreed_of_inv {s : Server M J} (h : Interleaving.Inv (fun _ => True) AllAnswer s)
    (cmid : UUID) : Agreed cmid s := by
  have hreplies : ∀ m ∈ s.shared.messages.rows, ∀ n ∈ s.shared.messages.rows,
      m.repliesTo cmid → n.repliesTo cmid → m = n := s.shared.messages.uxParent cmid
  have hanswers : ∀ p, .chat p ∈ s.procs → Answers s.shared p := by
    intro p hp
    obtain ⟨i, hi⟩ := List.getElem?_of_mem hp
    obtain ⟨_, ⟨⟩, hc⟩ := h.procs i _ hi
    exact hc
  have hfinish : ∀ p, .chat p ∈ s.procs → p.req.clientMessageId = cmid → ∀ id ∈ p.finishIds,
      ∃ m ∈ s.shared.messages.rows, m.repliesTo cmid ∧ m.id = id := by
    rintro p hp rfl id hid
    exact (hanswers p hp).finish id hid
  refine ⟨?_, ?_, hfinish, ?_⟩
  · refine s.shared.messages.table.countP_le_one fun m hm n hn hmid hnid => ?_
    simp only [Bool.and_eq_true, decide_eq_true_eq] at hmid hnid
    exact s.shared.messages.table.eq_of_key_eq hm hn (hmid.1.trans hnid.1.symm)
  · refine s.shared.messages.table.countP_le_one fun m hm n hn hmr hnr => ?_
    exact hreplies m hm n hn (of_decide_eq_true hmr) (of_decide_eq_true hnr)
  · intro p q hp hq hpid hqid id hid id' hid'
    obtain ⟨m, hm, hmreply, rfl⟩ := hfinish p hp hpid id hid
    obtain ⟨n, hn, hnreply, rfl⟩ := hfinish q hq hqid id' hid'
    rw [hreplies m hm n hn hmreply hnreply]

/-- **Retries agree.** In every run of chat requests, for every id: at most one user row and one
live reply, every `finish` is for that reply, and a request that comes in after a `finish` does
not run the agent. -/
theorem retries_agree (codec : ToolCodec M J) (historyTurns : Nat) (db : ChatDb J) (cmid : UUID)
    (es es' : List (TurnEvent M)) :
    (∀ s ∈ Runs.states (turnStep codec historyTurns) (serverStart db : Server M J) es,
      Agreed cmid s) ∧
    (Answered cmid (Runs.run (turnStep codec historyTurns) (serverStart db : Server M J) es) →
      ∀ i p,
        (Runs.run (turnStep codec historyTurns) (serverStart db : Server M J) es).procs.length ≤ i →
        (Runs.run (turnStep codec historyTurns) (serverStart db : Server M J)
          (es ++ es')).procs[i]? = some (.chat p) →
        p.req.clientMessageId = cmid → p.invoked = false) := by
  have hstart : Interleaving.Inv (fun _ => True) AllAnswer (serverStart db : Server M J) :=
    ⟨trivial, fun i p hp => by simp [serverStart] at hp⟩
  have hstep : ∀ (s : Server M J) (e : TurnEvent M), Interleaving.Inv (fun _ => True) AllAnswer s →
      Interleaving.Inv (fun _ => True) AllAnswer (turnStep codec historyTurns s e) :=
    fun _ _ => inv_turnStep codec historyTurns
  refine ⟨fun s hs => agreed_of_inv (Runs.inv_states hstep hstart es s hs) cmid, ?_⟩
  rintro ⟨p, hp, hpid, hfinish⟩ i q hi hq hqid
  have hreached := Runs.inv_run hstep hstart es
  rw [Runs.run_append] at hq
  generalize Runs.run (turnStep codec historyTurns) (serverStart db : Server M J) es = s at *
  have hreply : HasReply cmid s.shared := by
    obtain ⟨id, hid⟩ := List.exists_mem_of_ne_nil _ hfinish
    obtain ⟨m, hm, hmreply, _⟩ := (agreed_of_inv hreached cmid).finish p hp hpid id hid
    exact ⟨m, hm, hmreply⟩
  have hlate : Interleaving.Inv (HasReply cmid) (LateWait s.procs.length cmid) s := by
    refine ⟨hreply, fun j r hr => ?_⟩
    obtain ⟨c, rfl, _⟩ := hreached.procs j r hr
    have hj := (List.getElem?_eq_some_iff.1 hr).1
    exact ⟨c, rfl, fun hk => absurd hj (by omega)⟩
  obtain ⟨_, ⟨⟩, hwait⟩ :=
    (Runs.inv_run (fun _ _ => late_turnStep codec historyTurns) hlate es').procs i _ hq
  exact (hwait hi hqid).1

/-- The `finish` ids sent by each chat request. -/
def Server.finishIds (s : Server M J) : List (List UUID) :=
  s.procs.filterMap fun p =>
    match p with
    | .chat p => some p.finishIds
    | .delete _ => none

/-- Two requests race: both run the agent, one commits; a third replays. -/
example : (Runs.run (turnStep unitCodec 10)
    (serverStart ⟨sampleSessions 5 7, Messages.empty, Table.empty⟩ : Server Unit Unit)
    (List.replicate 3 (.postChat 7 (sampleRequest 5 1 "ran".toList (by decide))) ++
      [0, 1, 0, 1, 0, 1, 0, 1, 1, 0, 2, 2, 2].map fun i =>
        .move i ⟨sampleEnv (100 + i), textAgent "ok".toList⟩)).finishIds = [[], [101], [101]] := by
  decide

end MeJournal
