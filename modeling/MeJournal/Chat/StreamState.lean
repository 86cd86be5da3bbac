import MeJournal.Chat.Packets
import MeJournal.Lib.Dict
import Mathlib.Data.List.Sort

/-!
# Steps and the accumulated timeline of a turn

`StepAssigner` and `StreamState` of `app/api/_chat_stream.py`.
-/

namespace MeJournal

variable {M J : Type}

/-! ## `StepAssigner` -/

/-- The values of `_last_kind`. -/
inductive PacketKind where
  | text
  | tool
  deriving DecidableEq

structure StepAssigner where
  next : Int
  textStep : Option Int
  toolSteps : Dict String Int
  lastKind : Option PacketKind

namespace StepAssigner

/-- `__init__`. -/
def new : StepAssigner := ⟨1, none, Table.empty, none⟩

/-- The tool branch of `step_for`. -/
def stepForTool (a : StepAssigner) (toolCallId : String) : Option Int × StepAssigner :=
  match a.toolSteps.get? toolCallId with
  | some step => (some step, { a with lastKind := some .tool })
  | none =>
    (some a.next,
      { next := a.next + 1, textStep := none, toolSteps := a.toolSteps.set toolCallId a.next,
        lastKind := some .tool })

/-- `step_for`. -/
def stepFor (a : StepAssigner) : Packet M → Option Int × StepAssigner
  | .textDelta .. =>
    if a.lastKind ≠ some .text then
      (some a.next,
        { a with next := a.next + 1, textStep := some a.next, lastKind := some .text })
    else (a.textStep, { a with lastKind := some .text })
  | .toolStart _ id _ => a.stepForTool id
  | .toolCall _ id .. => a.stepForTool id
  | .toolEnd _ id .. => a.stepForTool id
  | _ => (none, a)

end StepAssigner

/-! ## `StreamState` -/

structure StreamState (J : Type) where
  events : Dict Int (Event J)
  sawError : Bool

namespace StreamState

def new : StreamState J := ⟨Table.empty, false⟩

/-- `_tool_record`: the record at the step, and the events with it in place. -/
def toolRecord (events : Dict Int (Event J)) (step : Int) (toolCallId tool : String) :
    ToolEvent J × Dict Int (Event J) :=
  match events.get? step with
  | some (.tool existing) => (existing, events)
  | _ =>
    let record := ToolEvent.new step toolCallId tool
    (record, events.set step (.tool record))

/-- `fold`; `dump` is `model_dump(mode="json")`. -/
def fold (dump : M → J) (st : StreamState J) : Packet M → StreamState J
  | .textDelta (some step) delta =>
    match st.events.get? step with
    | some (.text existing) =>
      { st with
        events :=
          st.events.set step (.text { existing with content := existing.content ++ delta }) }
    | _ => { st with events := st.events.set step (.text ⟨step, delta⟩) }
  | .error .. => { st with sawError := true }
  | .toolStart (some step) id name =>
    let (_, events) := toolRecord st.events step id name
    { st with events := events }
  | .toolCall (some step) id name arguments =>
    let (record, events) := toolRecord st.events step id name
    { st with events := events.set step (.tool { record with arguments := some (dump arguments) }) }
  | .toolEnd (some step) id name status result error =>
    let (record, events) := toolRecord st.events step id name
    { st with
      events := events.set step
        (.tool { record with status := some status, result := result.map dump, error := error }) }
  | _ => st

/-- `sorted(self.events)`, with the events there. -/
def sortedEvents (st : StreamState J) : List (Event J) :=
  (st.events.keys.insertionSort (· ≤ ·)).filterMap st.events.get?

/-- `events_list`. -/
def eventsList (st : StreamState J) : Option (List (Event J)) :=
  if st.events.rows.isEmpty then none else some st.sortedEvents

/-- `assistant_content`. -/
def assistantContent (st : StreamState J) : Text :=
  (st.sortedEvents.filterMap Event.text?).flatMap TextEvent.content

/-- `should_persist`. -/
def shouldPersist (st : StreamState J) : Bool := !st.sawError && !st.events.rows.isEmpty

end StreamState

/-! ## The loop of `stream_turn` -/

/-- The two states the loop carries. -/
structure TurnState (J : Type) where
  assigner : StepAssigner
  state : StreamState J

def TurnState.new : TurnState J := ⟨.new, .new⟩

/-- One iteration: the packet as it is emitted, and the states after it. -/
def TurnState.accept (dump : M → J) (t : TurnState J) (packet : Packet M) :
    Packet M × TurnState J :=
  let (step, assigner) := t.assigner.stepFor packet
  let packet := if step.isSome then packet.withStep step else packet
  (packet, ⟨assigner, t.state.fold dump packet⟩)

/-- The loop: the emitted packets and the final states. -/
def TurnState.acceptAll (dump : M → J) (t : TurnState J) : List (Packet M) →
    List (Packet M) × TurnState J
  | [] => ([], t)
  | p :: ps =>
    let (packet, t') := t.accept dump p
    let (packets, t'') := t'.acceptAll dump ps
    (packet :: packets, t'')

end MeJournal
