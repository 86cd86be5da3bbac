import MeJournal.Mobile.PacketRouter

/-!
# The turn reducer of the mobile client

`mobile/lib/chat/reducer.ts`, and `serverEventsFromTurn` of `mobile/lib/chat/adapter.ts`.

* `reducer` — one action.
* `foldPackets` — the packets of a stream, folded through the reducer.
-/

namespace MeJournal

variable {M J : Type}

/-! ## State and actions -/

/-- `ActiveTurn.status`. -/
inductive TurnStatus where
  | streaming
  | error
  deriving DecidableEq

/-- `ActiveTurn`; an `EventState` has the fields of the persisted event. -/
structure ActiveTurn (J : Type) where
  clientMessageId : UUID
  assistantMessageId : Option UUID
  userText : Text
  startedAt : Time
  events : Dict Int (Event J)
  status : TurnStatus
  errorMessage : Option Text

structure ChatState (J : Type) where
  activeTurn : Option (ActiveTurn J)

inductive ChatAction (J : Type) where
  | turnStart (clientMessageId : UUID) (userText : Text) (startedAt : Time)
  | packetStart (assistantMessageId : UUID)
  | packetTextDelta (step : Int) (delta : Text)
  | packetToolStart (step : Int) (toolCallId tool : String)
  | packetToolCall (step : Int) (toolCallId tool : String) (arguments : J)
  | packetToolEnd (step : Int) (toolCallId tool : String) (status : ToolStatus)
      (result : Option J) (error : Option Text)
  | packetError (code message : Text)
  | turnClear

def initialState : ChatState J := ⟨none⟩

/-! ## `reducer` -/

/-- The turn of `turn/start`. -/
def startedTurn (clientMessageId : UUID) (userText : Text) (startedAt : Time) : ActiveTurn J where
  clientMessageId := clientMessageId
  assistantMessageId := none
  userText := userText
  startedAt := startedAt
  events := Table.empty
  status := .streaming
  errorMessage := none

/-- `base`: the tool event at the step, or a new one. -/
def toolBase (turn : ActiveTurn J) (step : Int) (toolCallId tool : String) : ToolEvent J :=
  match turn.events.get? step with
  | some (.tool existing) => existing
  | _ => ToolEvent.new step toolCallId tool

/-- `turn` with the event at the step. -/
def ActiveTurn.setEvent (turn : ActiveTurn J) (step : Int) (e : Event J) : ActiveTurn J :=
  { turn with events := turn.events.set step e }

/-- `if (!turn) return state`, or the state with a new turn. -/
def ChatState.updateTurn (state : ChatState J) (update : ActiveTurn J → ActiveTurn J) :
    ChatState J :=
  match state.activeTurn with
  | none => state
  | some turn => ⟨some (update turn)⟩

/-- `reducer`. -/
def reducer (state : ChatState J) : ChatAction J → ChatState J
  | .turnStart id text now => ⟨some (startedTurn id text now)⟩
  | .packetStart id => state.updateTurn fun turn => { turn with assistantMessageId := some id }
  | .packetTextDelta step delta =>
    state.updateTurn fun turn =>
      match turn.events.get? step with
      | some (.text existing) =>
        turn.setEvent step (.text { existing with content := existing.content ++ delta })
      | _ => turn.setEvent step (.text ⟨step, delta⟩)
  | .packetToolStart step id tool =>
    state.updateTurn fun turn => turn.setEvent step (.tool (toolBase turn step id tool))
  | .packetToolCall step id tool arguments =>
    state.updateTurn fun turn =>
      turn.setEvent step (.tool { toolBase turn step id tool with arguments := some arguments })
  | .packetToolEnd step id tool status result err =>
    state.updateTurn fun turn =>
      turn.setEvent step (.tool
        { toolBase turn step id tool with
          status := some status, result := result, error := err })
  | .packetError _ message =>
    state.updateTurn fun turn => { turn with status := .error, errorMessage := some message }
  | .turnClear => initialState

/-- Only `turn/clear` ends a turn. -/
theorem reducer_activeTurn_isSome {state : ChatState J} (h : state.activeTurn.isSome = true)
    {action : ChatAction J} (hclear : action ≠ .turnClear) :
    (reducer state action).activeTurn.isSome = true := by
  obtain ⟨turn, hturn⟩ := Option.isSome_iff_exists.1 h
  cases action <;> simp_all [reducer, ChatState.updateTurn]

/-! ## `serverEventsFromTurn` -/

/-- An array index; such keys come first in an object. -/
def isArrayIndex (key : Int) : Bool := 0 ≤ key && key < 2 ^ 32 - 1

/-- `Object.values`: the array indices in ascending order, then the other keys as inserted. -/
def objectValues (events : Dict Int (Event J)) : List (Event J) :=
  ((events.keys.filter isArrayIndex).insertionSort (· ≤ ·) ++
    events.keys.filter fun key => !isArrayIndex key).filterMap events.get?

/-- `serverEventsFromTurn`. -/
def serverEventsFromTurn (turn : ActiveTurn J) : List (Event J) :=
  (objectValues turn.events).insertionSort fun a b => a.step ≤ b.step

/-! ## Packets -/

/-- The action that a packet's handler dispatches, if any. -/
def Packet.action (dump : M → J) : Packet M → Option (ChatAction J)
  | .start id _ => some (.packetStart id)
  | .textDelta (some step) delta => some (.packetTextDelta step delta)
  | .toolStart (some step) id name => some (.packetToolStart step id name)
  | .toolCall (some step) id name arguments =>
    some (.packetToolCall step id name (dump arguments))
  | .toolEnd (some step) id name status result err =>
    some (.packetToolEnd step id name status (result.map dump) err)
  | .error code message => some (.packetError code message)
  | _ => none

/-- The packets folded through the reducer. -/
def foldPackets (dump : M → J) (state : ChatState J) (ps : List (Packet M)) : ChatState J :=
  (ps.filterMap (Packet.action dump)).foldl reducer state

theorem foldPackets_append (dump : M → J) (state : ChatState J) (ps qs : List (Packet M)) :
    foldPackets dump state (ps ++ qs) = foldPackets dump (foldPackets dump state ps) qs := by
  rw [foldPackets, List.filterMap_append, List.foldl_append, foldPackets, foldPackets]

theorem action_ne_turnClear (dump : M → J) {p : Packet M} {action : ChatAction J}
    (h : p.action dump = some action) : action ≠ .turnClear := by
  rintro rfl
  unfold Packet.action at h
  split at h <;> cases h

/-- Folding packets keeps the turn. -/
theorem foldPackets_activeTurn_isSome (dump : M → J) {state : ChatState J}
    (h : state.activeTurn.isSome = true) (ps : List (Packet M)) :
    (foldPackets dump state ps).activeTurn.isSome = true := by
  induction ps generalizing state with
  | nil => exact h
  | cons p ps ih =>
    rw [← List.singleton_append, foldPackets_append]
    refine ih ?_
    cases haction : p.action dump with
    | none => simpa [foldPackets, haction] using h
    | some action =>
      simpa [foldPackets, haction] using
        reducer_activeTurn_isSome h (action_ne_turnClear dump haction)

end MeJournal
