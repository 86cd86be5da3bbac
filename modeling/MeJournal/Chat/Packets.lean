import MeJournal.Python

/-!
# Packets and timeline events

`app/agents/packets.py` and the `TextEvent` / `ToolEvent` of `app/schemas/sessions.py`.  A
tool packet's class fixes its `tool_name` and `type`; the packet carries the name.  `M` is
the type of the pydantic models in packets (tool arguments and results), `J` that of their
`model_dump(mode="json")` dumps in events.
-/

namespace MeJournal

/-- `status` of a tool's end. -/
inductive ToolStatus where
  | ok
  | error
  deriving DecidableEq

/-- `Packet`. -/
inductive Packet (M : Type) where
  | start (assistantMessageId sessionId : UUID)
  | textDelta (step : Option Int) (delta : Text)
  | toolStart (step : Option Int) (toolCallId toolName : String)
  | toolCall (step : Option Int) (toolCallId toolName : String) (arguments : M)
  | toolEnd (step : Option Int) (toolCallId toolName : String) (status : ToolStatus)
      (result : Option M) (error : Option Text)
  | error (code message : Text)
  | finish (reason : String) (assistantMessageId : UUID)
  deriving DecidableEq

namespace Packet

variable {M : Type}

/-- `packet.type`. -/
def type : Packet M → String
  | .start .. => "start"
  | .textDelta .. => "text_delta"
  | .toolStart _ _ name => name ++ "_start"
  | .toolCall _ _ name _ => name ++ "_call"
  | .toolEnd _ _ name .. => name ++ "_end"
  | .error .. => "error"
  | .finish .. => "finish"

/-- `packet.step = step`, for the packets that have the field. -/
def withStep (step : Option Int) : Packet M → Packet M
  | .textDelta _ delta => .textDelta step delta
  | .toolStart _ id name => .toolStart step id name
  | .toolCall _ id name arguments => .toolCall step id name arguments
  | .toolEnd _ id name status result err => .toolEnd step id name status result err
  | p => p

def toolCallId? : Packet M → Option String
  | .toolStart _ id _ => some id
  | .toolCall _ id .. => some id
  | .toolEnd _ id .. => some id
  | _ => none

def toolName? : Packet M → Option String
  | .toolStart _ _ name => some name
  | .toolCall _ _ name _ => some name
  | .toolEnd _ _ name .. => some name
  | _ => none

def delta? : Packet M → Option Text
  | .textDelta _ delta => some delta
  | _ => none

def isError : Packet M → Bool
  | .error .. => true
  | _ => false

/-- Text and tool packets: the ones with a `kind` and a `step`. -/
def isContent (p : Packet M) : Bool := p.delta?.isSome || p.toolCallId?.isSome

/-- The packets an agent yields: content and errors, no envelope. -/
def isAgentPacket (p : Packet M) : Bool := p.isContent || p.isError

/-- The id a `finish` carries. -/
def finishId? : Packet M → Option UUID
  | .finish _ id => some id
  | _ => none

@[simp] theorem withStep_finishId? (step : Option Int) (p : Packet M) :
    (p.withStep step).finishId? = p.finishId? := by
  cases p <;> rfl

theorem finishId?_of_isAgentPacket {p : Packet M} (h : p.isAgentPacket = true) :
    p.finishId? = none := by
  cases p <;> first | rfl | cases h

theorem isError_of_isContent {p : Packet M} (h : p.isContent = true) : p.isError = false := by
  cases p <;> first | rfl | cases h

@[simp] theorem withStep_withStep (step step' : Option Int) (p : Packet M) :
    (p.withStep step).withStep step' = p.withStep step' := by
  cases p <;> rfl

end Packet

/-! ## Events -/

/-- `TextEvent`. -/
structure TextEvent where
  step : Int
  content : Text
  deriving DecidableEq

/-- `ToolEvent`. -/
structure ToolEvent (J : Type) where
  step : Int
  toolCallId : String
  tool : String
  arguments : Option J
  status : Option ToolStatus
  result : Option J
  error : Option Text
  deriving DecidableEq

/-- `Event`. -/
inductive Event (J : Type) where
  | text (e : TextEvent)
  | tool (e : ToolEvent J)
  deriving DecidableEq

namespace Event

variable {J : Type}

def step : Event J → Int
  | .text e => e.step
  | .tool e => e.step

def text? : Event J → Option TextEvent
  | .text e => some e
  | .tool _ => none

def tool? : Event J → Option (ToolEvent J)
  | .text _ => none
  | .tool e => some e

def toolCallId? (e : Event J) : Option String := e.tool?.map ToolEvent.toolCallId

end Event

/-- `ToolEvent(step=…, tool_call_id=…, tool=…)` with the field defaults. -/
def ToolEvent.new {J : Type} (step : Int) (toolCallId tool : String) : ToolEvent J :=
  ⟨step, toolCallId, tool, none, none, none, none⟩

end MeJournal
