import MeJournal.Agents.Turns

/-!
# The conversation that the model is sent

`recording` logs the `messages` of every call to `chat.completions.create`; nothing else in a run
depends on the log.

* `runAgentStream_recording` — a recorded run yields, returns and leaves what the plain run does.
* `agentTurn_calls` — one turn makes one call; `agentLoop_calls` — the calls of the whole loop.
* `createCalls_conversation` — every call gets the prompt, then for each earlier turn one
  assistant message with its calls and one reply to each of them.
-/

namespace MeJournal

variable {W M : Type}

/-! ## Recording -/

/-- The environment in a world that also holds the calls to `create` so far. -/
def AgentEnv.recording (env : AgentEnv W M) : AgentEnv (W × List (List ChatMessage)) M where
  create := fun w messages =>
    let (stream, world) := env.create w.1 messages
    (stream, world, w.2 ++ [messages])
  validate := env.validate
  runTool := fun w name id args =>
    let (outcome, world) := env.runTool w.1 name id args
    (outcome, world, w.2)
  dumpJson := env.dumpJson

/-- The state without the log. -/
def RuntimeState.plain (s : RuntimeState (W × List (List ChatMessage))) : RuntimeState W :=
  ⟨s.messages, s.world.1⟩

/-- The calls so far. -/
def RuntimeState.calls (s : RuntimeState (W × List (List ChatMessage))) :
    List (List ChatMessage) :=
  s.world.2

/-- The `messages` of each call to `create` in a run, in order. -/
def createCalls (pf : Platform) (env : AgentEnv W M) (input : AgentInput) (s : RuntimeState W) :
    List (List ChatMessage) :=
  (runAgentStream pf env.recording input ⟨s.messages, s.world, []⟩).state.calls

/-- The recorded generator runs as the plain one. -/
abbrev Transparent {α : Type} (g' : RuntimeGen (W × List (List ChatMessage)) M α)
    (g : RuntimeGen W M α) : Prop :=
  Gen.Over RuntimeState.plain g' g

theorem appendMessage_transparent (message : ChatMessage) :
    Transparent (appendMessage message : RuntimeGen (W × List (List ChatMessage)) M Unit)
      (appendMessage message) :=
  Gen.over_modify fun _ => rfl

theorem readChunk_transparent (turn : AgentTurn) (chunk : Chunk) :
    Transparent (readChunk turn chunk : RuntimeGen (W × List (List ChatMessage)) M AgentTurn)
      (readChunk turn chunk) := by
  unfold readChunk
  split
  · exact Gen.over_pure _
  · refine Gen.Over.bind ?_ fun _ => Gen.over_pure _
    unfold emitContent
    split
    · exact Gen.over_pure _
    · exact Gen.over_emit _

theorem readChunks_transparent (turn : AgentTurn) (chunks : List Chunk) :
    Transparent (readChunks turn chunks : RuntimeGen (W × List (List ChatMessage)) M AgentTurn)
      (readChunks turn chunks) := by
  induction chunks generalizing turn with
  | nil => exact Gen.over_pure _
  | cons chunk chunks ih => exact (readChunk_transparent turn chunk).bind ih

theorem streamOneTurn_transparent (env : AgentEnv W M) :
    Transparent (streamOneTurn env.recording) (streamOneTurn env) := by
  have hopen : Transparent (openStream env.recording) (openStream env) := fun _ => ⟨rfl, rfl, rfl⟩
  refine hopen.bind fun stream => (readChunks_transparent _ _).bind fun _ =>
    Gen.Over.bind ?_ fun _ => Gen.over_pure _
  unfold raiseIf
  split
  · exact Gen.over_pure _
  · exact Gen.over_raise _

theorem surfaceToolError_transparent (tc : PartialToolCall) (exc : PyExc) (startEmitted : Bool) :
    Transparent
      (surfaceToolError tc exc startEmitted : RuntimeGen (W × List (List ChatMessage)) M Unit)
      (surfaceToolError tc exc startEmitted) := by
  refine Gen.Over.bind ?_ fun _ => (Gen.over_emit _).bind fun _ => appendMessage_transparent _
  split
  · exact Gen.over_pure _
  · exact Gen.over_emit _

theorem finishTool_transparent (env : AgentEnv W M) (tc : PartialToolCall)
    (outcome : Except PyException M) :
    Transparent (finishTool env.recording tc outcome) (finishTool env tc outcome) := by
  unfold finishTool
  split
  · split
    · exact surfaceToolError_transparent _ _ _
    · exact (Gen.over_emit _).bind fun _ => Gen.over_raise _
  · refine (Gen.over_emit _).bind fun _ => Gen.Over.bind ?_ fun _ => appendMessage_transparent _
    simp only [AgentEnv.recording]
    unfold orRaise
    split
    · exact Gen.over_raise _
    · exact Gen.over_pure _

theorem runOneTool_transparent (env : AgentEnv W M) (tc : PartialToolCall) :
    Transparent (runOneTool env.recording tc) (runOneTool env tc) := by
  have hcall : ∀ args, Transparent (callTool env.recording tc args) (callTool env tc args) :=
    fun _ _ => ⟨rfl, rfl, rfl⟩
  unfold runOneTool
  simp only [AgentEnv.recording]
  split
  · split
    · split
      · exact surfaceToolError_transparent _ _ _
      · exact Gen.over_raise _
    · exact (Gen.over_emit _).bind fun _ => (Gen.over_emit _).bind fun _ =>
        (hcall _).bind fun _ => finishTool_transparent env tc _
  · exact Gen.over_raise _

theorem runTools_transparent (env : AgentEnv W M) (tcs : List PartialToolCall) :
    Transparent (runTools env.recording tcs) (runTools env tcs) := by
  induction tcs with
  | nil => exact Gen.over_pure _
  | cons tc tcs ih => exact (runOneTool_transparent env tc).bind fun _ => ih

theorem agentTurn_transparent (env : AgentEnv W M) :
    Transparent (agentTurn env.recording) (agentTurn env) := by
  refine (streamOneTurn_transparent env).bind fun turn =>
    (appendMessage_transparent _).bind fun _ => ?_
  split
  · exact Gen.over_pure _
  · exact (runTools_transparent env _).bind fun _ => Gen.over_pure _

theorem agentLoop_transparent (env : AgentEnv W M) (n : Nat) :
    Transparent (agentLoop env.recording n) (agentLoop env n) := by
  induction n with
  | zero => exact Gen.over_emit _
  | succ n ih =>
    rw [agentLoop_succ, agentLoop_succ]
    refine (agentTurn_transparent env).bind fun again => ?_
    split
    · exact ih
    · exact Gen.over_pure _

/-- **Recording changes nothing.** -/
theorem runAgentStream_recording (pf : Platform) (env : AgentEnv W M) (input : AgentInput) :
    Transparent (runAgentStream pf env.recording input) (runAgentStream pf env input) := by
  refine (Gen.over_ofExcept _).bind fun messages => ?_
  have hprompt : Transparent
      (Gen.modify fun s => { s with messages := messages } :
        RuntimeGen (W × List (List ChatMessage)) M Unit)
      (Gen.modify fun s => { s with messages := messages }) := Gen.over_modify fun _ => rfl
  refine hprompt.bind fun _ => (agentLoop_transparent env _).handle fun exc => ?_
  unfold agentFailed
  split
  · exact Gen.over_emit _
  · exact Gen.over_raise _

/-! ## The calls of a turn -/

/-- A part of a turn that does not call the model. -/
abbrev NoCall {α : Type} (g : RuntimeGen (W × List (List ChatMessage)) M α) : Prop :=
  Gen.Keeps RuntimeState.calls g

theorem appendMessage_noCall (message : ChatMessage) :
    NoCall (appendMessage message : RuntimeGen (W × List (List ChatMessage)) M Unit) :=
  Gen.keeps_modify fun _ => rfl

theorem surfaceToolError_noCall (tc : PartialToolCall) (exc : PyExc) (startEmitted : Bool) :
    NoCall (surfaceToolError tc exc startEmitted :
      RuntimeGen (W × List (List ChatMessage)) M Unit) := by
  intro s
  rw [surfaceToolError_run]
  rfl

theorem finishTool_noCall (env : AgentEnv W M) (tc : PartialToolCall)
    (outcome : Except PyException M) : NoCall (finishTool env.recording tc outcome) := by
  unfold finishTool
  split
  · split
    · exact surfaceToolError_noCall _ _ _
    · exact (Gen.keeps_emit _).bind fun _ => Gen.keeps_raise _
  · refine (Gen.keeps_emit _).bind fun _ => Gen.Keeps.bind ?_ fun _ => appendMessage_noCall _
    unfold orRaise
    split
    · exact Gen.keeps_raise _
    · exact Gen.keeps_pure _

theorem runOneTool_noCall (env : AgentEnv W M) (tc : PartialToolCall) :
    NoCall (runOneTool env.recording tc) := by
  have hcall : ∀ args, NoCall (callTool env.recording tc args) := fun _ _ => rfl
  unfold runOneTool
  split
  · split
    · split
      · exact surfaceToolError_noCall _ _ _
      · exact Gen.keeps_raise _
    · exact (Gen.keeps_emit _).bind fun _ => (Gen.keeps_emit _).bind fun _ =>
        (hcall _).bind fun _ => finishTool_noCall env tc _
  · exact Gen.keeps_raise _

theorem runTools_noCall (env : AgentEnv W M) (tcs : List PartialToolCall) :
    NoCall (runTools env.recording tcs) := by
  induction tcs with
  | nil => exact Gen.keeps_pure _
  | cons tc tcs ih => exact (runOneTool_noCall env tc).bind fun _ => ih

/-- **One turn makes one call**, with the messages so far. -/
theorem agentTurn_calls (env : AgentEnv W M) (s : RuntimeState (W × List (List ChatMessage))) :
    (agentTurn env.recording s).state.calls = s.calls ++ [s.messages] := by
  have hopened : (streamOneTurn env.recording s).state.calls = s.calls ++ [s.messages] := by
    rw [(streamOneTurn_run env.recording s).2]
    rfl
  have hrest : ∀ turn : AgentTurn, NoCall (do
      appendMessage (assistantTurnMessage turn)
      if turn.finishReason ≠ some "tool_calls" ∨ turn.toolCalls = [] then pure false
      else do
        runTools env.recording turn.toolCalls
        pure true) := by
    intro turn
    refine (appendMessage_noCall _).bind fun _ => ?_
    split
    · exact Gen.keeps_pure _
    · exact (runTools_noCall env _).bind fun _ => Gen.keeps_pure _
  cases hturn : (streamOneTurn env.recording s).result with
  | error exc => rw [agentTurn, Gen.bind_of_error hturn, hopened]
  | ok turn => rw [agentTurn, Gen.bind_of_ok hturn, hrest turn, hopened]

/-- **The calls of the loop**: each is one exchange longer than the one before. -/
theorem agentLoop_calls (env : AgentEnv W M) (n : Nat)
    (s : RuntimeState (W × List (List ChatMessage))) :
    ∃ (k : Nat) (exchanges : List Exchange), k ≤ n ∧ k ≤ exchanges.length + 1 ∧
      (agentLoop env.recording n s).state.calls = s.calls ++ (List.range k).map fun i =>
        s.messages ++ (exchanges.take i).flatMap Exchange.messages := by
  induction n generalizing s with
  | zero => exact ⟨0, [], le_rfl, by simp, (List.append_nil _).symm⟩
  | succ n ih =>
    have hcalls := agentTurn_calls env s
    rw [agentLoop_succ]
    have hlast : ∀ r : List (List ChatMessage), r = s.calls ++ [s.messages] →
        ∃ (k : Nat) (exchanges : List Exchange), k ≤ n + 1 ∧ k ≤ exchanges.length + 1 ∧
          r = s.calls ++ (List.range k).map fun i =>
            s.messages ++ (exchanges.take i).flatMap Exchange.messages := by
      rintro r rfl
      exact ⟨1, [], by omega, by simp, by simp⟩
    cases hturn : (agentTurn env.recording s).result with
    | error exc =>
      rw [Gen.bind_of_error hturn]
      exact hlast _ hcalls
    | ok again =>
      rw [Gen.bind_of_ok hturn]
      cases again with
      | false => exact hlast _ hcalls
      | true =>
        obtain ⟨exchange, hmessages, _⟩ := (agentTurn_run env.recording s).2 hturn
        obtain ⟨k, exchanges, hk, hle, hrest⟩ := ih (agentTurn env.recording s).state
        refine ⟨k + 1, exchange :: exchanges, by omega, by simp; omega, ?_⟩
        simp only [if_true, hrest, hcalls, hmessages, List.append_assoc, List.range_succ_eq_map]
        simp

/-! ## The whole run -/

/-- The prompt: the system message, the history and the user's message. -/
def promptMessages (pf : Platform) (input : AgentInput) : List ChatMessage :=
  .system input.nowUtc input.clientTz (pf.localStamp input.nowUtc input.clientTz) ::
    input.history.map historyMessage ++ [.user input.userInput]

theorem buildMessages_ok {pf : Platform} {input : AgentInput} {messages : List ChatMessage}
    (h : buildMessages pf input = .ok messages) : messages = promptMessages pf input := by
  unfold buildMessages renderSystemPrompt at h
  cases hzone : pf.zoneInfo input.clientTz with
  | error e =>
    rw [hzone] at h
    cases h
  | ok u =>
    rw [hzone] at h
    exact (Except.ok.inj h).symm

theorem agentFailed_noCall (exc : PyExc) :
    NoCall (agentFailed exc : RuntimeGen (W × List (List ChatMessage)) M Unit) := by
  unfold agentFailed
  split
  · exact Gen.keeps_emit _
  · exact Gen.keeps_raise _

/-- The handler makes no call. -/
theorem guarded_calls (env : AgentEnv W M) (n : Nat)
    (s : RuntimeState (W × List (List ChatMessage))) :
    ((agentLoop env.recording n).handle agentFailed s).state.calls =
      (agentLoop env.recording n s).state.calls := by
  cases hloop : (agentLoop env.recording n s).result with
  | ok _ => rw [Gen.handle_of_ok hloop]
  | error exc => rw [Gen.handle_of_error hloop, agentFailed_noCall]

/-- The calls of a run, at most `maxToolTurns` of them. -/
theorem createCalls_eq (pf : Platform) (env : AgentEnv W M) (input : AgentInput)
    (s : RuntimeState W) :
    ∃ (k : Nat) (exchanges : List Exchange), k ≤ maxToolTurns ∧ k ≤ exchanges.length + 1 ∧
      createCalls pf env input s = (List.range k).map fun i =>
        promptMessages pf input ++ (exchanges.take i).flatMap Exchange.messages := by
  rw [createCalls, runAgentStream_eq]
  cases hprompt : buildMessages pf input with
  | error e => exact ⟨0, [], by simp, by simp, rfl⟩
  | ok messages =>
    obtain rfl := buildMessages_ok hprompt
    obtain ⟨k, exchanges, hk, hle, hcalls⟩ := agentLoop_calls (M := M) env maxToolTurns
      ⟨promptMessages pf input, s.world, []⟩
    exact ⟨k, exchanges, hk, hle, (guarded_calls env maxToolTurns _).trans hcalls⟩

/-- **Every call to the model gets a well-formed conversation**: the prompt, then one exchange for
each earlier turn, whose assistant message has calls and whose replies answer them one by one. -/
theorem createCalls_conversation (pf : Platform) (env : AgentEnv W M) (input : AgentInput)
    (s : RuntimeState W) :
    ∃ exchanges : List Exchange, (createCalls pf env input s).length ≤ exchanges.length + 1 ∧
      createCalls pf env input s =
        (List.range (createCalls pf env input s).length).map fun i =>
          promptMessages pf input ++ (exchanges.take i).flatMap Exchange.messages := by
  obtain ⟨k, exchanges, _, hle, hcalls⟩ := createCalls_eq pf env input s
  have hlength : (createCalls pf env input s).length = k := by
    rw [hcalls, List.length_map, List.length_range]
  exact ⟨exchanges, hlength ▸ hle, by rw [hlength]; exact hcalls⟩

end MeJournal
