import MeJournal.Agents.Runtime

/-!
# How the agent's generator ends

* `agentLoop_terminal` — the loop yields content packets, then at most one error packet.
* `runtimeAgent` — the runtime is an agent of the chat route.
* `closesCleanly_iff` — the consumer of `run_agent_stream` sees no exception, and every failure as
  one last error packet, exactly when `ZoneInfo(client_tz)` succeeds.
-/

namespace MeJournal

variable {W M : Type}

/-! ## What the parts yield and raise -/

/-- Content packets, and `Exception`s. -/
abbrev Content {α : Type} (g : RuntimeGen W M α) : Prop :=
  Gen.Within (fun p => p.isContent = true) PyExc.isException g

theorem appendMessage_content (message : ChatMessage) :
    Content (appendMessage message : RuntimeGen W M Unit) :=
  Gen.within_modify _

theorem readChunk_content (turn : AgentTurn) (chunk : Chunk) :
    Content (readChunk turn chunk : RuntimeGen W M AgentTurn) := by
  unfold readChunk
  split
  · exact Gen.within_pure _
  · refine Gen.Within.bind ?_ fun _ => Gen.within_pure _
    unfold emitContent
    split
    · exact Gen.within_pure _
    · exact Gen.within_emit rfl

theorem readChunks_content (turn : AgentTurn) (chunks : List Chunk) :
    Content (readChunks turn chunks : RuntimeGen W M AgentTurn) := by
  induction chunks generalizing turn with
  | nil => exact Gen.within_pure _
  | cons chunk chunks ih => exact (readChunk_content turn chunk).bind ih

theorem streamOneTurn_content (env : AgentEnv W M) : Content (streamOneTurn env) := by
  have hopen : Content (openStream env) := fun _ => ⟨nofun, nofun⟩
  refine hopen.bind fun stream => (readChunks_content _ _).bind fun _ =>
    Gen.Within.bind ?_ fun _ => Gen.within_pure _
  unfold raiseIf
  split
  · exact Gen.within_pure _
  · exact Gen.within_raise (Subtype.property _)

theorem surfaceToolError_content (tc : PartialToolCall) (exc : PyExc) (startEmitted : Bool) :
    Content (surfaceToolError tc exc startEmitted : RuntimeGen W M Unit) := by
  refine Gen.Within.bind ?_ fun _ => Gen.Within.bind (Gen.within_emit rfl) fun _ =>
    appendMessage_content _
  split
  · exact Gen.within_pure _
  · exact Gen.within_emit rfl

theorem keyError_isException (name : String) : (keyError name).isException := by
  simp [PyExc.isException, PyExc.isinstance, keyError]

theorem finishTool_content (env : AgentEnv W M) (tc : PartialToolCall)
    (outcome : Except PyException M) : Content (finishTool env tc outcome) := by
  unfold finishTool
  split
  · rename_i exc
    split
    · exact surfaceToolError_content tc exc true
    · exact Gen.Within.bind (Gen.within_emit rfl) fun _ => Gen.within_raise exc.property
  · refine Gen.Within.bind (Gen.within_emit rfl) fun _ => Gen.Within.bind ?_ fun _ =>
      appendMessage_content _
    unfold orRaise
    split
    · exact Gen.within_raise (Subtype.property _)
    · exact Gen.within_pure _

theorem runOneTool_content (env : AgentEnv W M) (tc : PartialToolCall) :
    Content (runOneTool env tc) := by
  have hcall : ∀ args, Content (callTool env tc args) := fun _ _ => ⟨nofun, nofun⟩
  unfold runOneTool
  split
  · split
    · rename_i exc _
      split
      · exact surfaceToolError_content tc exc false
      · exact Gen.within_raise exc.property
    · exact Gen.Within.bind (Gen.within_emit rfl) fun _ =>
        Gen.Within.bind (Gen.within_emit rfl) fun _ =>
          (hcall _).bind fun _ => finishTool_content env tc _
  · exact Gen.within_raise (keyError_isException _)

theorem runTools_content (env : AgentEnv W M) (tcs : List PartialToolCall) :
    Content (runTools env tcs) := by
  induction tcs with
  | nil => exact Gen.within_pure _
  | cons tc tcs ih => exact (runOneTool_content env tc).bind fun _ => ih

/-! ## The loop and the handler -/

/-- **The loop** yields content packets, then at most one error packet. -/
theorem agentLoop_terminal (env : AgentEnv W M) (n : Nat) :
    Gen.Terminal (fun p => p.isContent = true) PyExc.isException (fun p => p.isError = true)
      (agentLoop env n) := by
  induction n with
  | zero => exact Gen.terminal_emit rfl
  | succ n ih =>
    refine (streamOneTurn_content env).bind_terminal fun turn =>
      (appendMessage_content _).bind_terminal fun _ => ?_
    split
    · exact (Gen.within_pure ()).terminal
    · exact (runTools_content env _).bind_terminal fun _ => ih

theorem agentFailed_eq {exc : PyExc} (h : exc.isException) :
    (agentFailed exc : RuntimeGen W M Unit) =
      Gen.emit (.error "agent_failed".toList exc.cls.toList) :=
  if_pos h

/-- The `try` block never raises. -/
theorem guarded_terminal (env : AgentEnv W M) (n : Nat) :
    Gen.Terminal (fun p => p.isContent = true) (fun _ => False) (fun p => p.isError = true)
      ((agentLoop env n).handle agentFailed) :=
  (agentLoop_terminal env n).handle fun _ hexc => ⟨_, rfl, agentFailed_eq hexc⟩

/-- The prompt decides whether the `try` block is reached. -/
theorem runAgentStream_eq (pf : Platform) (env : AgentEnv W M) (input : AgentInput)
    (s : RuntimeState W) :
    runAgentStream pf env input s =
      match buildMessages pf input with
      | .error e => ⟨[], .error e, s⟩
      | .ok messages =>
        (agentLoop env maxToolTurns).handle agentFailed { s with messages := messages } := by
  unfold runAgentStream
  cases buildMessages pf input <;> rfl

theorem buildMessages_error_iff (pf : Platform) (input : AgentInput) (e : PyExc) :
    buildMessages pf input = .error e ↔ pf.zoneInfo input.clientTz = .error e := by
  unfold buildMessages renderSystemPrompt
  cases pf.zoneInfo input.clientTz <;> simp

/-! ## The runtime as an agent -/

theorem runAgentStream_packets (pf : Platform) (env : AgentEnv W M) (input : AgentInput)
    (s : RuntimeState W) :
    ∀ p ∈ (runAgentStream pf env input s).emitted, p.isAgentPacket = true := by
  rw [runAgentStream_eq]
  cases buildMessages pf input with
  | error e => simp
  | ok messages =>
    obtain ⟨body, last, hemitted, hbody, hlast, _⟩ :=
      guarded_terminal env maxToolTurns { s with messages := messages }
    intro p hp
    simp only [hemitted] at hp
    rcases List.mem_append.1 hp with hp | hp
    · simp [Packet.isAgentPacket, hbody p hp]
    · rcases hlast with rfl | ⟨y, rfl, hy, _⟩
      · cases hp
      · cases List.mem_singleton.1 hp
        simp [Packet.isAgentPacket, hy]

/-- The agent of a chat request: the runtime in a world that may depend on the request. -/
def runtimeAgent (pf : Platform) (env : AgentInput → AgentEnv W M) (world : W) : Agent M where
  run := fun input =>
    let r := runAgentStream pf (env input) input ⟨[], world⟩
    ⟨r.emitted, match r.result with | .ok _ => none | .error e => some e⟩
  packets := fun input => runAgentStream_packets pf (env input) input ⟨[], world⟩

/-! ## The theorem -/

/-- The exception that a run meets, in the prompt or in the loop. -/
def agentFailure (pf : Platform) (env : AgentEnv W M) (input : AgentInput) (s : RuntimeState W) :
    Option PyExc :=
  match buildMessages pf input with
  | .error e => some e
  | .ok messages =>
    match (agentLoop env maxToolTurns { s with messages := messages }).result with
    | .error e => some e
    | .ok _ => none

/-- The consumer sees no exception, and no error packet but a last one; a failure is the last
packet. -/
structure ClosesCleanly (failure : Option PyExc)
    (r : GenRun (RuntimeState W) PyExc (Packet M) Unit) : Prop where
  returned : r.result = .ok ()
  single : ∀ p ∈ r.emitted.dropLast, p.isError = false
  reported : ∀ e, failure = some e →
    r.emitted.getLast? = some (.error "agent_failed".toList e.cls.toList)

/-- Past the prompt the generator closes cleanly. -/
theorem closesCleanly_of_messages {pf : Platform} (env : AgentEnv W M) {input : AgentInput}
    (s : RuntimeState W) {messages : List ChatMessage}
    (h : buildMessages pf input = .ok messages) :
    ClosesCleanly (agentFailure pf env input s) (runAgentStream pf env input s) := by
  rw [runAgentStream_eq, h]
  simp only [agentFailure, h]
  obtain ⟨body, last, hemitted, hbody, hlast, hnever⟩ :=
    guarded_terminal env maxToolTurns { s with messages := messages }
  refine ⟨?_, fun p hp => ?_, fun e he => ?_⟩
  · cases hresult : ((agentLoop env maxToolTurns).handle agentFailed
        { s with messages := messages }).result with
    | ok _ => rfl
    | error e => exact (hnever e hresult).elim
  · have hmem : p ∈ body := by
      rw [hemitted] at hp
      rcases hlast with rfl | ⟨y, rfl, _⟩
      · exact (List.dropLast_sublist body).subset (by simpa using hp)
      · rwa [List.dropLast_concat] at hp
    exact Packet.isError_of_isContent (hbody p hmem)
  · obtain ⟨_, _, _, _, _, hraise⟩ :=
      agentLoop_terminal env maxToolTurns { s with messages := messages }
    cases hloop : (agentLoop env maxToolTurns { s with messages := messages }).result with
    | ok _ =>
      rw [hloop] at he
      cases he
    | error e' =>
      rw [hloop] at he
      cases he
      rw [Gen.handle_of_error hloop, agentFailed_eq (hraise e hloop)]
      exact List.getLast?_concat

/-- **The stream always closes cleanly, exactly when** the client's time zone exists. -/
theorem closesCleanly_iff (pf : Platform) (env : AgentEnv W M) (input : AgentInput)
    (s : RuntimeState W) :
    ClosesCleanly (agentFailure pf env input s) (runAgentStream pf env input s) ↔
      pf.zoneInfo input.clientTz = .ok () := by
  cases hzone : pf.zoneInfo input.clientTz with
  | error e =>
    have hbuild := (buildMessages_error_iff pf input e).2 hzone
    refine iff_of_false (fun h => ?_) nofun
    have hreturned := h.returned
    rw [runAgentStream_eq, hbuild] at hreturned
    cases hreturned
  | ok u =>
    refine iff_of_true ?_ rfl
    cases hbuild : buildMessages pf input with
    | error e =>
      rw [(buildMessages_error_iff pf input e).1 hbuild] at hzone
      cases hzone
    | ok messages => exact closesCleanly_of_messages env s hbuild

/-- A model that says nothing, and tools without data. -/
def silentEnv : AgentEnv Unit Unit where
  create := fun _ _ => (⟨[], none⟩, ())
  validate := fun _ _ => .ok ()
  runTool := fun _ _ _ _ => (.ok (), ())
  dumpJson := fun _ => .ok []

/-- The input of a chat request with the time zone `clientTz`. -/
def sampleAgentInput (clientTz : Text) : AgentInput :=
  ⟨7, "hi".toList, [], clientTz, [], fun _ => none⟩

/-- An unknown time zone raises out of the generator. -/
theorem unknown_zone_raises :
    ¬ ClosesCleanly
        (agentFailure utcPlatform silentEnv (sampleAgentInput "Not/AZone".toList) ⟨[], ()⟩)
        (runAgentStream utcPlatform silentEnv (sampleAgentInput "Not/AZone".toList) ⟨[], ()⟩) :=
  fun h => absurd h.returned (by decide)

end MeJournal
