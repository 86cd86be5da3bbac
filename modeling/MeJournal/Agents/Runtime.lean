import MeJournal.Chat.Endpoint

/-!
# The agent runtime

`app/agents/runtime.py`, as a generator of packets over the running `messages` list and the
world `W` that the model and the tools act on.  The chat-completions client and the tools are
parameters: a call may answer anything and raise any `Exception`.  The system message keeps what
its template is filled with.

* `runAgentStream` — prompt, loop and handler.
* `runtimeAgent` — the runtime as the agent of a chat request.
-/

namespace MeJournal

/-! ## Model streams -/

/-- `delta.tool_calls[i].function`. -/
structure FunctionDelta where
  name : Option String
  arguments : Option Text

/-- `delta.tool_calls[i]`. -/
structure ToolCallDelta where
  index : Int
  id : Option String
  function : Option FunctionDelta

/-- `chunk.choices[i]`, its `delta` inlined. -/
structure Choice where
  content : Option Text
  toolCalls : Option (List ToolCallDelta)
  finishReason : Option String

structure Chunk where
  choices : List Choice

def PyExc.isException (e : PyExc) : Prop := e.isinstance ["Exception"] = true

/-- An instance of `Exception`. -/
abbrev PyException := { e : PyExc // e.isException }

/-- What `chat.completions.create` streams, and the exception that ends it: raised by the call,
between two chunks or on closing. -/
structure ModelStream where
  chunks : List Chunk
  raised : Option PyException

/-- `_PartialToolCall`. -/
structure PartialToolCall where
  id : String
  name : String
  args : Text
  deriving DecidableEq

def PartialToolCall.new : PartialToolCall := ⟨"", "", []⟩

/-- The merge of one fragment; empty strings and `None` are falsy. -/
def PartialToolCall.fold (entry : PartialToolCall) (tc : ToolCallDelta) : PartialToolCall :=
  let entry := { entry with id := (tc.id.filter (· ≠ "")).getD entry.id }
  match tc.function with
  | none => entry
  | some fn => { entry with
      name := (fn.name.filter (· ≠ "")).getD entry.name
      args := entry.args ++ fn.arguments.getD [] }

/-- `_fold_tool_call_deltas`. -/
def foldToolCallDeltas (byIdx : Dict Int PartialToolCall) (deltas : List ToolCallDelta) :
    Dict Int PartialToolCall :=
  deltas.foldl (fun d tc => d.set tc.index (((d.get? tc.index).getD .new).fold tc)) byIdx

/-- `_TurnResult`, its tool calls still keyed by index. -/
structure AgentTurn where
  text : Text
  toolCallsByIdx : Dict Int PartialToolCall
  finishReason : Option String

def AgentTurn.new : AgentTurn := ⟨[], Table.empty, none⟩

def AgentTurn.toolCalls (turn : AgentTurn) : List PartialToolCall :=
  turn.toolCallsByIdx.rows.map Prod.snd

/-! ## Messages -/

/-- An entry of `messages`; an absent key is `none` or empty. -/
inductive ChatMessage where
  | system (nowUtc clientTz nowLocal : Text)
  | user (content : Text)
  | assistant (content : Option Text) (toolCalls : List PartialToolCall)
  | tool (toolCallId : String) (content : Text)
  deriving DecidableEq

/-- `render_system_prompt`. -/
def renderSystemPrompt (pf : Platform) (nowUtc clientTz : Text) : Except PyExc ChatMessage :=
  match pf.zoneInfo clientTz with
  | .error e => .error e
  | .ok _ => .ok (.system nowUtc clientTz (pf.localStamp nowUtc clientTz))

def historyMessage (turn : HistoryTurn) : ChatMessage :=
  match turn.role with
  | .user => .user turn.content
  | .assistant => .assistant (some turn.content) []

/-- `_build_messages`. -/
def buildMessages (pf : Platform) (input : AgentInput) : Except PyExc (List ChatMessage) :=
  match renderSystemPrompt pf input.nowUtc input.clientTz with
  | .error e => .error e
  | .ok system => .ok (system :: input.history.map historyMessage ++ [.user input.userInput])

/-- `_assistant_message`. -/
def assistantTurnMessage (turn : AgentTurn) : ChatMessage :=
  .assistant (if turn.text = [] then none else some turn.text) turn.toolCalls

/-! ## JSON -/

def hexDigit (n : Nat) : Char := Nat.digitChar (n % 16)

/-- A backslash, `u` and four hexadecimal digits. -/
def unicodeEscape (n : Nat) : Text :=
  ['\\', 'u', hexDigit (n / 4096), hexDigit (n / 256), hexDigit (n / 16), hexDigit n]

/-- One character of a string, as `json.dumps` writes it. -/
def jsonEscape (c : Char) : Text :=
  let n := c.toNat
  if c = '"' then ['\\', '"']
  else if c = '\\' then ['\\', '\\']
  else if n = 0x0A then ['\\', 'n']
  else if n = 0x0D then ['\\', 'r']
  else if n = 0x09 then ['\\', 't']
  else if n = 0x0C then ['\\', 'f']
  else if n = 0x08 then ['\\', 'b']
  else if 0x20 ≤ n ∧ n ≤ 0x7E then [c]
  else if n < 0x10000 then unicodeEscape n
  else unicodeEscape (0xD800 + (n - 0x10000) / 0x400) ++
    unicodeEscape (0xDC00 + (n - 0x10000) % 0x400)

/-- `json.dumps({"error": label})`. -/
def errorJson (label : Text) : Text :=
  "\x7b\"error\": \"".toList ++ label.flatMap jsonEscape ++ "\"\x7d".toList

/-! ## The loop -/

variable {W M : Type}

/-- The chat-completions client, and the tools by name. -/
structure AgentEnv (W M : Type) where
  /-- `client.chat.completions.create`. -/
  create : W → List ChatMessage → ModelStream × W
  /-- `tool.ARGS_MODEL.model_validate_json`. -/
  validate : String → Text → Except PyException M
  /-- `tool.run`. -/
  runTool : W → String → String → M → Except PyException M × W
  /-- `result.model_dump_json`. -/
  dumpJson : M → Except PyException Text

/-- `messages` and the world. -/
structure RuntimeState (W : Type) where
  messages : List ChatMessage
  world : W

abbrev RuntimeGen (W M α : Type) := Gen (RuntimeState W) PyExc (Packet M) α

/-- `messages.append`. -/
def appendMessage (message : ChatMessage) : RuntimeGen W M Unit :=
  Gen.modify fun s => { s with messages := s.messages ++ [message] }

/-- `yield TextDeltaPacket`, if there is content. -/
def emitContent : Option Text → RuntimeGen W M Unit
  | none => pure ()
  | some content => Gen.emit (.textDelta none content)

/-- One chunk of `_stream_one_turn`. -/
def readChunk (turn : AgentTurn) (chunk : Chunk) : RuntimeGen W M AgentTurn :=
  match chunk.choices with
  | [] => pure turn
  | choice :: _ => do
    let content := choice.content.filter (· ≠ [])
    emitContent content
    pure { text := turn.text ++ content.getD []
           toolCallsByIdx := foldToolCallDeltas turn.toolCallsByIdx (choice.toolCalls.getD [])
           finishReason := (choice.finishReason.filter (· ≠ "")).orElse fun _ => turn.finishReason }

def readChunks (turn : AgentTurn) : List Chunk → RuntimeGen W M AgentTurn
  | [] => pure turn
  | chunk :: chunks => do
    let turn ← readChunk turn chunk
    readChunks turn chunks

/-- Open a stream on the current messages. -/
def openStream (env : AgentEnv W M) : RuntimeGen W M ModelStream := fun s =>
  let (stream, world) := env.create s.world s.messages
  ⟨[], .ok stream, { s with world := world }⟩

/-- A call that returns or raises an `Exception`. -/
def orRaise {α : Type} : Except PyException α → RuntimeGen W M α
  | .error exc => Gen.raise exc
  | .ok a => pure a

def raiseIf : Option PyException → RuntimeGen W M Unit
  | none => pure ()
  | some exc => Gen.raise exc

/-- `_stream_one_turn`. -/
def streamOneTurn (env : AgentEnv W M) : RuntimeGen W M AgentTurn := do
  let stream ← openStream env
  let turn ← readChunks .new stream.chunks
  raiseIf stream.raised
  pure turn

/-- `f"{type(exc).__name__}: {exc}"`. -/
def errorLabel (exc : PyExc) : Text := exc.cls.toList ++ ':' :: ' ' :: exc.message

/-- `_surface_tool_error`. -/
def surfaceToolError (tc : PartialToolCall) (exc : PyExc) (startEmitted : Bool) :
    RuntimeGen W M Unit := do
  (if startEmitted then pure () else Gen.emit (.toolStart none tc.id tc.name))
  Gen.emit (.toolEnd none tc.id tc.name .error none (some (errorLabel exc)))
  appendMessage (.tool tc.id (errorJson (errorLabel exc)))

/-- `_MODEL_RECOVERABLE_TOOL_ERRORS`. -/
def modelRecoverableToolErrors : List String :=
  ["ValidationError", "MemoryNotFound", "MemoryDuplicate", "MemoryValidationError",
    "MemoryIdempotencyReused"]

/-- `tool.run`, its exception as a value. -/
def callTool (env : AgentEnv W M) (tc : PartialToolCall) (args : M) :
    RuntimeGen W M (Except PyException M) := fun s =>
  let (outcome, world) := env.runTool s.world tc.name tc.id args
  ⟨[], .ok outcome, { s with world := world }⟩

/-- What `_run_one_tool` does with the outcome of the call. -/
def finishTool (env : AgentEnv W M) (tc : PartialToolCall) :
    Except PyException M → RuntimeGen W M Unit
  | .error exc =>
    if exc.val.isinstance modelRecoverableToolErrors then surfaceToolError tc exc true
    else do
      Gen.emit (.toolEnd none tc.id tc.name .error none (some exc.val.cls.toList))
      Gen.raise exc
  | .ok result => do
    Gen.emit (.toolEnd none tc.id tc.name .ok (some result) none)
    let content ← orRaise (env.dumpJson result)
    appendMessage (.tool tc.id content)

/-- `_run_one_tool`. -/
def runOneTool (env : AgentEnv W M) (tc : PartialToolCall) : RuntimeGen W M Unit :=
  if tc.name ∈ toolClassByName then
    match env.validate tc.name (if tc.args = [] then "\x7b\x7d".toList else tc.args) with
    | .error exc =>
      if exc.val.isinstance ["ValidationError"] then surfaceToolError tc exc false
      else Gen.raise exc
    | .ok args => do
      Gen.emit (.toolStart none tc.id tc.name)
      Gen.emit (.toolCall none tc.id tc.name args)
      let outcome ← callTool env tc args
      finishTool env tc outcome
  else Gen.raise (keyError tc.name)

def runTools (env : AgentEnv W M) : List PartialToolCall → RuntimeGen W M Unit
  | [] => pure ()
  | tc :: tcs => do
    runOneTool env tc
    runTools env tcs

/-- `_MAX_TOOL_TURNS`. -/
def maxToolTurns : Nat := 10

/-- The loop, with the number of turns left. -/
def agentLoop (env : AgentEnv W M) : Nat → RuntimeGen W M Unit
  | 0 => Gen.emit (.error "agent_max_turns".toList "tool loop exceeded cap".toList)
  | n + 1 => do
    let turn ← streamOneTurn env
    appendMessage (assistantTurnMessage turn)
    if turn.finishReason ≠ some "tool_calls" ∨ turn.toolCalls = [] then pure ()
    else do
      runTools env turn.toolCalls
      agentLoop env n

/-- `except Exception`. -/
def agentFailed (exc : PyExc) : RuntimeGen W M Unit :=
  if exc.isinstance ["Exception"] then Gen.emit (.error "agent_failed".toList exc.cls.toList)
  else Gen.raise exc

/-- `run_agent_stream`. -/
def runAgentStream (pf : Platform) (env : AgentEnv W M) (input : AgentInput) :
    RuntimeGen W M Unit := do
  let messages ← Gen.ofExcept (buildMessages pf input)
  Gen.modify fun s => { s with messages := messages }
  (agentLoop env maxToolTurns).handle agentFailed

end MeJournal
