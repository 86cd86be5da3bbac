import MeJournal.Agents.CleanClose

/-!
# The agent loop, turn by turn

What one iteration of the loop in `run_agent_stream` yields, appends and returns, and from it the
whole loop.

* `executeTool`, `executedCalls` — the calls that `_run_one_tool` takes up, with what became of
  them; `runOneTool_emitted`, `runTools_emitted` — their packets are all that the tools yield.
* `AgentTurn.read` — what is folded from some chunks; `streamOneTurn_eq` — the run of
  `_stream_one_turn`.
* `agentTurn` — one iteration; `agentLoop_succ` — the loop repeats it.
* `loopSegments` — the text deltas and executed calls of a run, in order; `agentLoop_emitted` —
  they are the packets of the loop, up to the error packet of the cap.
-/

namespace MeJournal

variable {W M : Type}

/-! ## Executed calls -/

/-- A call that `_run_one_tool` took up, with what its packets carry. -/
structure ExecutedCall (M : Type) where
  call : PartialToolCall
  arguments : Option M
  status : ToolStatus
  result : Option M
  error : Option Text

/-- Start, call if the arguments are valid, end. -/
def ExecutedCall.packets (e : ExecutedCall M) : List (Packet M) :=
  .toolStart none e.call.id e.call.name ::
    ((e.arguments.map (Packet.toolCall none e.call.id e.call.name)).toList ++
      [.toolEnd none e.call.id e.call.name e.status e.result e.error])

/-- `tc.args or "\x7b\x7d"`. -/
def rawArguments (tc : PartialToolCall) : Text :=
  if tc.args = [] then "\x7b\x7d".toList else tc.args

/-- The label of an exception in the end packet of a call that ran. -/
def toolErrorLabel (exc : PyExc) : Text :=
  if exc.isinstance modelRecoverableToolErrors then errorLabel exc else exc.cls.toList

/-- What becomes of one call, if it is taken up at all. -/
def executeTool (env : AgentEnv W M) (w : W) (tc : PartialToolCall) : Option (ExecutedCall M) :=
  if tc.name ∈ toolClassByName then
    match env.validate tc.name (rawArguments tc) with
    | .error exc =>
      if exc.val.isinstance ["ValidationError"] then
        some ⟨tc, none, .error, none, some (errorLabel exc)⟩
      else none
    | .ok args =>
      match (env.runTool w tc.name tc.id args).1 with
      | .error exc => some ⟨tc, some args, .error, none, some (toolErrorLabel exc)⟩
      | .ok result => some ⟨tc, some args, .ok, some result, none⟩
  else none

/-- The calls of one turn, up to the first that raises. -/
def executedCalls (env : AgentEnv W M) : List PartialToolCall → RuntimeState W →
    List (ExecutedCall M)
  | [], _ => []
  | tc :: tcs, s =>
    (executeTool env s.world tc).toList ++
      match (runOneTool env tc s).result with
      | .ok _ => executedCalls env tcs (runOneTool env tc s).state
      | .error _ => []

theorem executeTool_call {env : AgentEnv W M} {w : W} {tc : PartialToolCall} {e : ExecutedCall M}
    (h : executeTool env w tc = some e) : e.call = tc := by
  unfold executeTool at h
  split at h
  · split at h
    · split at h <;> cases h
      rfl
    · split at h <;> cases h <;> rfl
  · cases h

theorem surfaceToolError_run (tc : PartialToolCall) (exc : PyExc) (startEmitted : Bool)
    (s : RuntimeState W) :
    (surfaceToolError tc exc startEmitted : RuntimeGen W M Unit) s =
      ⟨(if startEmitted then [] else [.toolStart none tc.id tc.name]) ++
          [.toolEnd none tc.id tc.name .error none (some (errorLabel exc))], .ok (),
        { s with messages := s.messages ++ [.tool tc.id (errorJson (errorLabel exc))] }⟩ := by
  cases startEmitted <;> rfl

/-- After the call packet: one end packet, and one reply unless the run raises. -/
theorem finishTool_run (env : AgentEnv W M) (tc : PartialToolCall) (outcome : Except PyException M)
    (s : RuntimeState W) :
    (finishTool env tc outcome s).emitted =
        [match outcome with
          | .error exc => .toolEnd none tc.id tc.name .error none (some (toolErrorLabel exc))
          | .ok result => .toolEnd none tc.id tc.name .ok (some result) none] ∧
      ((finishTool env tc outcome s).result = .ok () → ∃ content,
        (finishTool env tc outcome s).state.messages = s.messages ++ [.tool tc.id content]) := by
  unfold finishTool
  cases outcome with
  | error exc =>
    simp only [toolErrorLabel]
    split
    · rw [surfaceToolError_run]
      exact ⟨rfl, fun _ => ⟨_, rfl⟩⟩
    · exact ⟨rfl, nofun⟩
  | ok result =>
    simp only
    cases hdump : env.dumpJson result with
    | error exc => exact ⟨rfl, nofun⟩
    | ok content => exact ⟨rfl, fun _ => ⟨content, rfl⟩⟩

/-- **One call**: its packets, and one reply with its id unless the run raises. -/
theorem runOneTool_run (env : AgentEnv W M) (tc : PartialToolCall) (s : RuntimeState W) :
    (runOneTool env tc s).emitted =
        (executeTool env s.world tc).toList.flatMap ExecutedCall.packets ∧
      ((runOneTool env tc s).result = .ok () →
        (executeTool env s.world tc).isSome = true ∧ ∃ content,
          (runOneTool env tc s).state.messages = s.messages ++ [.tool tc.id content]) := by
  unfold runOneTool executeTool rawArguments
  split
  · cases env.validate tc.name (if tc.args = [] then "\x7b\x7d".toList else tc.args) with
    | error exc =>
      simp only
      split
      · rw [surfaceToolError_run]
        exact ⟨rfl, fun _ => ⟨rfl, _, rfl⟩⟩
      · exact ⟨rfl, nofun⟩
    | ok args =>
      have hfinish := finishTool_run env tc (env.runTool s.world tc.name tc.id args).1
        { s with world := (env.runTool s.world tc.name tc.id args).2 }
      have hrun : (do
            Gen.emit (.toolStart none tc.id tc.name)
            Gen.emit (.toolCall none tc.id tc.name args)
            let outcome ← callTool env tc args
            finishTool env tc outcome : RuntimeGen W M Unit) s =
          let r := finishTool env tc (env.runTool s.world tc.name tc.id args).1
            { s with world := (env.runTool s.world tc.name tc.id args).2 }
          ⟨.toolStart none tc.id tc.name :: .toolCall none tc.id tc.name args :: r.emitted,
            r.result, r.state⟩ := rfl
      simp only [hrun, hfinish.1]
      cases houtcome : (env.runTool s.world tc.name tc.id args).1 with
      | error exc =>
        rw [houtcome] at hfinish
        exact ⟨rfl, fun hok => ⟨rfl, hfinish.2 hok⟩⟩
      | ok result =>
        rw [houtcome] at hfinish
        exact ⟨rfl, fun hok => ⟨rfl, hfinish.2 hok⟩⟩
  · exact ⟨rfl, nofun⟩

theorem runOneTool_emitted (env : AgentEnv W M) (tc : PartialToolCall) (s : RuntimeState W) :
    (runOneTool env tc s).emitted =
      (executeTool env s.world tc).toList.flatMap ExecutedCall.packets :=
  (runOneTool_run env tc s).1

theorem executedCalls_cons (env : AgentEnv W M) (tc : PartialToolCall)
    (tcs : List PartialToolCall) (s : RuntimeState W) :
    executedCalls env (tc :: tcs) s = (executeTool env s.world tc).toList ++
      match (runOneTool env tc s).result with
      | .ok _ => executedCalls env tcs (runOneTool env tc s).state
      | .error _ => [] := rfl

/-- The packets of a turn's tools. -/
theorem runTools_emitted (env : AgentEnv W M) (tcs : List PartialToolCall) (s : RuntimeState W) :
    (runTools env tcs s).emitted = (executedCalls env tcs s).flatMap ExecutedCall.packets := by
  induction tcs generalizing s with
  | nil => rfl
  | cons tc tcs ih =>
    rw [runTools, executedCalls_cons, List.flatMap_append, ← runOneTool_emitted]
    cases hr : (runOneTool env tc s).result with
    | ok a => rw [Gen.bind_of_ok hr, ih]
    | error e => rw [Gen.bind_of_error hr, List.flatMap_nil, List.append_nil]

/-- **The tools of a turn that does not raise**: every call is taken up, and gets one reply with
its id, in order. -/
theorem runTools_ok {env : AgentEnv W M} {tcs : List PartialToolCall} {s : RuntimeState W}
    (h : (runTools env tcs s).result = .ok ()) :
    (executedCalls env tcs s).map ExecutedCall.call = tcs ∧ ∃ contents,
      contents.length = tcs.length ∧
      (runTools env tcs s).state.messages =
        s.messages ++ tcs.zipWith (fun tc content => .tool tc.id content) contents := by
  induction tcs generalizing s with
  | nil => exact ⟨rfl, [], rfl, (List.append_nil _).symm⟩
  | cons tc tcs ih =>
    rw [runTools] at h ⊢
    obtain ⟨_, hone, hrest⟩ := Gen.ok_of_bind h
    obtain ⟨htaken, content, hmessages⟩ := (runOneTool_run env tc s).2 hone
    obtain ⟨hcalls, contents, hlength, hreplies⟩ := ih hrest
    obtain ⟨e, he⟩ := Option.isSome_iff_exists.1 htaken
    refine ⟨?_, content :: contents, by simp [hlength], ?_⟩
    · rw [executedCalls_cons, hone, he]
      simp [hcalls, executeTool_call he]
    · rw [Gen.bind_of_ok hone]
      simp [hreplies, hmessages]

/-! ## One turn -/

/-- The text deltas of a stream. -/
def chunkDeltas (chunks : List Chunk) : List Text :=
  chunks.filterMap fun chunk =>
    chunk.choices.head?.bind fun choice => choice.content.filter (· ≠ [])

/-- The tool-call fragments of a stream. -/
def chunkFragments (chunks : List Chunk) : List ToolCallDelta :=
  chunks.flatMap fun chunk => (chunk.choices.head?.bind Choice.toolCalls).getD []

/-- The finish reasons of a stream. -/
def chunkFinishReasons (chunks : List Chunk) : List String :=
  chunks.filterMap fun chunk =>
    chunk.choices.head?.bind fun choice => choice.finishReason.filter (· ≠ "")

/-- The turn after some chunks more. -/
def AgentTurn.read (turn : AgentTurn) (chunks : List Chunk) : AgentTurn where
  text := turn.text ++ (chunkDeltas chunks).flatten
  toolCallsByIdx := foldToolCallDeltas turn.toolCallsByIdx (chunkFragments chunks)
  finishReason := (chunkFinishReasons chunks).getLast?.or turn.finishReason

/-- One iteration of the loop; `true` is another one. -/
def agentTurn (env : AgentEnv W M) : RuntimeGen W M Bool := do
  let turn ← streamOneTurn env
  appendMessage (assistantTurnMessage turn)
  if turn.finishReason ≠ some "tool_calls" ∨ turn.toolCalls = [] then pure false
  else do
    runTools env turn.toolCalls
    pure true

theorem agentLoop_succ (env : AgentEnv W M) (n : Nat) :
    agentLoop env (n + 1) = agentTurn env >>= fun again =>
      if again then agentLoop env n else pure () := by
  rw [agentTurn, Gen.bind_assoc]
  refine congrArg (streamOneTurn env >>= ·) (funext fun turn => ?_)
  rw [Gen.bind_assoc]
  refine congrArg (appendMessage _ >>= ·) (funext fun _ => ?_)
  split
  · rfl
  · rw [Gen.bind_assoc]
    rfl

theorem AgentTurn.read_nil (turn : AgentTurn) : turn.read [] = turn := by
  simp [AgentTurn.read, chunkDeltas, chunkFragments, chunkFinishReasons, foldToolCallDeltas]

theorem AgentTurn.read_append (turn : AgentTurn) (chunks chunks' : List Chunk) :
    turn.read (chunks ++ chunks') = (turn.read chunks).read chunks' := by
  simp [AgentTurn.read, chunkDeltas, chunkFragments, chunkFinishReasons, foldToolCallDeltas,
    List.getLast?_append, Option.or_assoc]

theorem readChunk_run (turn : AgentTurn) (chunk : Chunk) (s : RuntimeState W) :
    (readChunk turn chunk : RuntimeGen W M AgentTurn) s =
      ⟨(chunkDeltas [chunk]).map (Packet.textDelta none), .ok (turn.read [chunk]), s⟩ := by
  obtain ⟨choices⟩ := chunk
  cases choices with
  | nil =>
    have hread : turn.read [⟨[]⟩] = turn := by
      change (⟨turn.text ++ [], turn.toolCallsByIdx, turn.finishReason⟩ : AgentTurn) = turn
      rw [List.append_nil]
    rw [hread]
    rfl
  | cons choice rest =>
    have hfragments : chunkFragments [⟨choice :: rest⟩] = choice.toolCalls.getD [] :=
      List.append_nil _
    simp only [readChunk, AgentTurn.read, hfragments, chunkDeltas, chunkFinishReasons,
      List.filterMap_cons, List.filterMap_nil, List.head?_cons, Option.bind_some]
    cases choice.content.filter (· ≠ []) with
    | none => cases choice.finishReason.filter (· ≠ "") <;> rfl
    | some delta =>
      simp only [List.flatten_cons, List.flatten_nil, List.append_nil]
      cases choice.finishReason.filter (· ≠ "") <;> rfl

/-- **The chunks of a stream**: their deltas are yielded, and the turn is folded on. -/
theorem readChunks_run (turn : AgentTurn) (chunks : List Chunk) (s : RuntimeState W) :
    (readChunks turn chunks : RuntimeGen W M AgentTurn) s =
      ⟨(chunkDeltas chunks).map (Packet.textDelta none), .ok (turn.read chunks), s⟩ := by
  induction chunks generalizing turn with
  | nil =>
    rw [turn.read_nil]
    rfl
  | cons chunk chunks ih =>
    have hone := readChunk_run (M := M) turn chunk s
    have hdeltas : chunkDeltas (chunk :: chunks) = chunkDeltas [chunk] ++ chunkDeltas chunks :=
      List.filterMap_append (l := [chunk])
    have hread : turn.read (chunk :: chunks) = (turn.read [chunk]).read chunks :=
      turn.read_append [chunk] chunks
    rw [readChunks, Gen.bind_of_ok (by rw [hone]), hone, ih, hdeltas, List.map_append, hread]

/-- **The model's part of a turn**: the deltas of its stream, then the turn or the exception. -/
theorem streamOneTurn_eq (env : AgentEnv W M) (s : RuntimeState W) :
    streamOneTurn env s =
      ⟨(chunkDeltas (env.create s.world s.messages).1.chunks).map (Packet.textDelta none),
        match (env.create s.world s.messages).1.raised with
        | none => .ok (AgentTurn.new.read (env.create s.world s.messages).1.chunks)
        | some exc => .error exc,
        { s with world := (env.create s.world s.messages).2 }⟩ := by
  have hread := readChunks_run (M := M) .new (env.create s.world s.messages).1.chunks
    { s with world := (env.create s.world s.messages).2 }
  have hopen : openStream env s = ⟨[], .ok (env.create s.world s.messages).1,
      { s with world := (env.create s.world s.messages).2 }⟩ := rfl
  rw [streamOneTurn, Gen.bind_of_silent hopen, Gen.bind_of_ok (by rw [hread]), hread]
  cases (env.create s.world s.messages).1.raised with
  | none => exact congrArg (GenRun.mk · _ _) (List.append_nil _)
  | some exc => exact congrArg (GenRun.mk · _ _) (List.append_nil _)

theorem streamOneTurn_run (env : AgentEnv W M) (s : RuntimeState W) :
    (streamOneTurn env s).emitted =
        (chunkDeltas (env.create s.world s.messages).1.chunks).map (Packet.textDelta none) ∧
      (streamOneTurn env s).state = { s with world := (env.create s.world s.messages).2 } := by
  rw [streamOneTurn_eq]
  exact ⟨rfl, rfl⟩

/-- A text delta, or an executed call. -/
inductive Segment (M : Type) where
  | text (delta : Text)
  | tool (call : ExecutedCall M)

namespace Segment

def packets : Segment M → List (Packet M)
  | .text delta => [.textDelta none delta]
  | .tool call => call.packets

def call? : Segment M → Option (ExecutedCall M)
  | .text _ => none
  | .tool call => some call

end Segment

/-- The turn goes on to its tools. -/
def AgentTurn.requestsTools (turn : AgentTurn) : Bool :=
  turn.finishReason = some "tool_calls" && turn.toolCalls ≠ []

/-- The calls executed in the turn that starts in `s`. -/
def turnCalls (env : AgentEnv W M) (s : RuntimeState W) : List (ExecutedCall M) :=
  let r := streamOneTurn env s
  match r.result with
  | .error _ => []
  | .ok turn =>
    if turn.requestsTools then
      executedCalls env turn.toolCalls
        { r.state with messages := r.state.messages ++ [assistantTurnMessage turn] }
    else []

def turnSegments (env : AgentEnv W M) (s : RuntimeState W) : List (Segment M) :=
  (chunkDeltas (env.create s.world s.messages).1.chunks).map .text ++ (turnCalls env s).map .tool

/-- What a turn that requests tools appends to `messages`. -/
structure Exchange where
  content : Option Text
  toolCalls : List PartialToolCall
  replies : List Text
  requests : toolCalls ≠ []
  answered : replies.length = toolCalls.length

/-- One assistant message, and one reply per call. -/
def Exchange.messages (e : Exchange) : List ChatMessage :=
  .assistant e.content e.toolCalls ::
    e.toolCalls.zipWith (fun tc reply => .tool tc.id reply) e.replies

theorem AgentTurn.requestsTools_iff (turn : AgentTurn) :
    turn.requestsTools = true ↔
      ¬ (turn.finishReason ≠ some "tool_calls" ∨ turn.toolCalls = []) := by
  simp only [AgentTurn.requestsTools, Bool.and_eq_true, decide_eq_true_eq, not_or, ne_eq, not_not]

/-- The packets of a turn are its deltas and its calls. -/
theorem turnSegments_packets (env : AgentEnv W M) (s : RuntimeState W) :
    (turnSegments env s).flatMap Segment.packets = (streamOneTurn env s).emitted ++
      (turnCalls env s).flatMap ExecutedCall.packets := by
  rw [turnSegments, List.flatMap_append, List.flatMap_map, List.flatMap_map,
    (streamOneTurn_run env s).1, List.map_eq_flatMap]
  rfl

/-- **One turn**: it yields its deltas and its calls; if another turn follows, it has appended one
exchange, of the calls it executed. -/
theorem agentTurn_run (env : AgentEnv W M) (s : RuntimeState W) :
    (agentTurn env s).emitted = (turnSegments env s).flatMap Segment.packets ∧
      ((agentTurn env s).result = .ok true → ∃ exchange : Exchange,
        (agentTurn env s).state.messages = s.messages ++ exchange.messages ∧
          (turnCalls env s).map ExecutedCall.call = exchange.toolCalls) := by
  rw [turnSegments_packets, turnCalls]
  cases hturn : (streamOneTurn env s).result with
  | error exc =>
    rw [agentTurn, Gen.bind_of_error hturn]
    exact ⟨(List.append_nil _).symm, nofun⟩
  | ok turn =>
    rw [agentTurn, Gen.bind_of_ok hturn]
    by_cases hrequests : turn.requestsTools = true
    · have hgo := turn.requestsTools_iff.1 hrequests
      simp only [hrequests, if_true, if_neg hgo]
      set opened : RuntimeState W :=
        { (streamOneTurn env s).state with
          messages := (streamOneTurn env s).state.messages ++ [assistantTurnMessage turn] }
        with hopened
      have happend : (appendMessage (assistantTurnMessage turn) : RuntimeGen W M Unit)
          (streamOneTurn env s).state = ⟨[], .ok (), opened⟩ := rfl
      rw [Gen.bind_of_ok (by rw [happend]), happend]
      simp only [List.nil_append]
      cases htools : (runTools env turn.toolCalls opened).result with
      | error exc =>
        rw [Gen.bind_of_error htools, ← runTools_emitted]
        exact ⟨rfl, nofun⟩
      | ok _ =>
        obtain ⟨hexecuted, contents, hlength, hmessages⟩ := runTools_ok htools
        rw [Gen.bind_of_ok htools, ← runTools_emitted]
        refine ⟨congrArg _ (List.append_nil _), fun _ => ?_⟩
        let exchange : Exchange :=
          ⟨if turn.text = [] then none else some turn.text, turn.toolCalls, contents,
            fun hnil => hgo (Or.inr hnil), hlength⟩
        refine ⟨exchange, hmessages.trans ?_, hexecuted⟩
        rw [hopened, (streamOneTurn_run env s).2, List.append_assoc]
        rfl
    · have hstop := not_not.1 (mt turn.requestsTools_iff.2 hrequests)
      simp only [hrequests, if_pos hstop]
      exact ⟨rfl, nofun⟩

/-! ## The loop -/

/-- The deltas and calls of a run with `n` turns left. -/
def loopSegments (env : AgentEnv W M) : Nat → RuntimeState W → List (Segment M)
  | 0, _ => []
  | n + 1, s =>
    turnSegments env s ++
      match (agentTurn env s).result with
      | .ok true => loopSegments env n (agentTurn env s).state
      | _ => []

/-- All `n` turns request tools, and none raises. -/
def capReached (env : AgentEnv W M) : Nat → RuntimeState W → Bool
  | 0, _ => true
  | n + 1, s =>
    match (agentTurn env s).result with
    | .ok true => capReached env n (agentTurn env s).state
    | _ => false

def maxTurnsPacket : Packet M :=
  .error "agent_max_turns".toList "tool loop exceeded cap".toList

/-- **The loop** yields the deltas and calls of its turns, and the error packet of the cap exactly
when it is reached. -/
theorem agentLoop_emitted (env : AgentEnv W M) (n : Nat) (s : RuntimeState W) :
    (agentLoop env n s).emitted = (loopSegments env n s).flatMap Segment.packets ++
      if capReached env n s then [maxTurnsPacket] else [] := by
  induction n generalizing s with
  | zero => rfl
  | succ n ih =>
    rw [agentLoop_succ, loopSegments, capReached, List.flatMap_append, ← (agentTurn_run env s).1]
    cases hturn : (agentTurn env s).result with
    | error exc =>
      rw [Gen.bind_of_error hturn]
      simp
    | ok again =>
      rw [Gen.bind_of_ok hturn]
      cases again with
      | false =>
        simp only [Bool.false_eq_true, if_false, List.flatMap_nil, List.append_nil]
        exact List.append_nil _
      | true => simp only [if_true, ih, List.append_assoc]

end MeJournal
