import MeJournal.Mobile.SseParser
import MeJournal.Chat.Endpoint

/-!
# The packet router of the mobile client

`mobile/lib/api/packet-router.ts`, and `_sse`, which writes what it reads.

* `routePacket_sse` — a packet that the server sent reaches the handler of its type.
* `toolNameFromType_type` — and the handler reads back the tool's name.
-/

namespace MeJournal

variable {M J : Type}

/-! ## Payloads -/

/-- The fields that the handlers read from a payload; `none` is a missing or `null` field. -/
structure Payload (J : Type) where
  type : String
  kind : Option String
  assistantMessageId : Option UUID
  step : Option Int
  delta : Option Text
  toolCallId : Option String
  arguments : Option J
  status : Option ToolStatus
  result : Option J
  error : Option Text
  code : Option Text
  message : Option Text
  deriving DecidableEq

/-- A payload with its type alone. -/
def Payload.ofType (type : String) : Payload J :=
  ⟨type, none, none, none, none, none, none, none, none, none, none, none⟩

namespace Packet

/-- The fields of the packet's JSON; `dump` is `model_dump(mode="json")`. -/
def payload (dump : M → J) (p : Packet M) : Payload J :=
  let base : Payload J := Payload.ofType p.type
  match p with
  | .start id _ => { base with assistantMessageId := some id }
  | .textDelta step delta => { base with kind := some "text", step := step, delta := some delta }
  | .toolStart step id _ => { base with kind := some "tool", step := step, toolCallId := some id }
  | .toolCall step id _ arguments =>
    { base with
      kind := some "tool", step := step, toolCallId := some id, arguments := some (dump arguments) }
  | .toolEnd step id _ status result err =>
    { base with
      kind := some "tool", step := step, toolCallId := some id, status := some status,
      result := result.map dump, error := err }
  | .error code message => { base with code := some code, message := some message }
  | .finish _ id => { base with assistantMessageId := some id }

/-- What the server sends between `start` and `finish`: every content packet has its step, and
every tool packet is one of a tool it knows. -/
def isStreamed : Packet M → Bool
  | .textDelta step _ => step.isSome
  | .toolStart step _ name => step.isSome && toolClassByName.contains name
  | .toolCall step _ name _ => step.isSome && toolClassByName.contains name
  | .toolEnd step _ name .. => step.isSome && toolClassByName.contains name
  | .error .. => true
  | _ => false

end Packet

/-- `model_dump_json` and `JSON.parse`; `none` is a text that does not parse. -/
structure JsonCodec (M J : Type) where
  dump : M → J
  dumpJson : Packet M → Text
  parse : Text → Option (Payload J)

/-- `_sse`. -/
def sse (codec : JsonCodec M J) (p : Packet M) : SseEvent := ⟨p.type.toList, codec.dumpJson p⟩

/-- The JSON of a packet is one line, and parses to the packet's fields. -/
structure JsonCodec.Reads (codec : JsonCodec M J) (p : Packet M) : Prop where
  oneLine : OneLine (codec.dumpJson p)
  parse : codec.parse (codec.dumpJson p) = some (p.payload codec.dump)

instance [DecidableEq J] (codec : JsonCodec M J) (p : Packet M) : Decidable (codec.Reads p) :=
  decidable_of_iff (OneLine (codec.dumpJson p) ∧
      codec.parse (codec.dumpJson p) = some (p.payload codec.dump))
    ⟨fun h => ⟨h.1, h.2⟩, fun h => ⟨h.oneLine, h.parse⟩⟩

/-! ## `routePacket` -/

/-- The members of `PacketHandlers`. -/
inductive Handler where
  | onStart
  | onTextDelta
  | onToolStart
  | onToolCall
  | onToolEnd
  | onError
  | onFinish
  deriving DecidableEq

/-- `event.endsWith(suffix)`. -/
def endsWith (event suffix : Text) : Bool := suffix.isSuffixOf event

/-- The choice of the handler in `routePacket`. -/
def handlerFor (event : Text) (kind : Option String) : Option Handler :=
  if event = "start".toList then some .onStart
  else if event = "finish".toList then some .onFinish
  else if event = "error".toList then some .onError
  else if event = "text_delta".toList then some .onTextDelta
  else if kind ≠ some "tool" then none
  else if endsWith event "_start".toList then some .onToolStart
  else if endsWith event "_call".toList then some .onToolCall
  else if endsWith event "_end".toList then some .onToolEnd
  else none

/-- `routePacket`: the handler it calls, if any, and the payload. -/
def routePacket (parse : Text → Option (Payload J)) (event : SseEvent) :
    Option (Handler × Payload J) :=
  match parse event.data with
  | none => none
  | some payload => (handlerFor event.event payload.kind).map fun handler => (handler, payload)

/-- `toolNameFromType`. -/
def toolNameFromType (type : String) : Option String :=
  ["_start".toList, "_call".toList, "_end".toList].findSome? fun suffix =>
    if endsWith type.toList suffix then
      some (String.ofList (type.toList.take (type.toList.length - suffix.length)))
    else none

/-! ## What the server sends -/

/-- The handler of a packet's type. -/
def Packet.handler : Packet M → Handler
  | .start .. => .onStart
  | .textDelta .. => .onTextDelta
  | .toolStart .. => .onToolStart
  | .toolCall .. => .onToolCall
  | .toolEnd .. => .onToolEnd
  | .error .. => .onError
  | .finish .. => .onFinish

/-- The packets of a stream. -/
def Packet.isSent (p : Packet M) : Bool :=
  p.isStreamed || p.handler == .onStart || p.handler == .onFinish

theorem toolName_of_isSent {p : Packet M} (h : p.isSent = true) {name : String}
    (hname : p.toolName? = some name) : name ∈ toolClassByName := by
  cases p <;> simp_all [Packet.isSent, Packet.isStreamed, Packet.handler, Packet.toolName?]

/-- The values of `type` on the wire. -/
def wireTypes : List String :=
  ["start", "text_delta", "error", "finish", "search_memories_start", "search_memories_call",
    "search_memories_end", "manage_memory_start", "manage_memory_call", "manage_memory_end"]

/-- The event names of the stream have no line end and no space around them. -/
theorem wireTypes_wellFormed :
    ∀ type ∈ wireTypes, OneLine type.toList ∧ jsTrim type.toList = type.toList := by
  decide

/-- The phases of a tool's packets, with their handlers. -/
def toolPhases : List (String × Handler) :=
  [("_start", .onToolStart), ("_call", .onToolCall), ("_end", .onToolEnd)]

/-- The types of the tool packets, and what the client reads from them. -/
theorem toolType_spec : ∀ name ∈ toolClassByName, ∀ phase ∈ toolPhases,
    name ++ phase.1 ∈ wireTypes ∧
      handlerFor (name ++ phase.1).toList (some "tool") = some phase.2 ∧
      toolNameFromType (name ++ phase.1) = some name := by
  decide

/-- A tool packet has one of the phases. -/
theorem type_of_toolName (dump : M → J) {p : Packet M} {name : String}
    (hname : p.toolName? = some name) :
    ∃ phase ∈ toolPhases, p.type = name ++ phase.1 ∧ p.handler = phase.2 ∧
      (p.payload dump).kind = some "tool" := by
  cases p with
  | toolStart => exact ⟨("_start", .onToolStart), by decide, by cases hname; exact ⟨rfl, rfl, rfl⟩⟩
  | toolCall => exact ⟨("_call", .onToolCall), by decide, by cases hname; exact ⟨rfl, rfl, rfl⟩⟩
  | toolEnd => exact ⟨("_end", .onToolEnd), by decide, by cases hname; exact ⟨rfl, rfl, rfl⟩⟩
  | _ => cases hname

theorem type_of_isSent {p : Packet M} (h : p.isSent = true) : p.type ∈ wireTypes := by
  cases hname : p.toolName? with
  | none =>
    cases p with
    | toolStart => cases hname
    | toolCall => cases hname
    | toolEnd => cases hname
    | _ => simp [Packet.type, wireTypes]
  | some name =>
    obtain ⟨phase, hphase, htype, _⟩ := type_of_toolName id hname
    rw [htype]
    exact (toolType_spec name (toolName_of_isSent h hname) phase hphase).1

theorem sse_wellFormed {codec : JsonCodec M J} {p : Packet M} (h : p.isSent = true)
    (hjson : codec.Reads p) : (SseFrame.event (sse codec p)).WellFormed :=
  have htype := wireTypes_wellFormed p.type (type_of_isSent h)
  ⟨htype.1, htype.2, hjson.oneLine⟩

theorem handlerFor_type (dump : M → J) {p : Packet M} (h : p.isSent = true) :
    handlerFor p.type.toList (p.payload dump).kind = some p.handler := by
  cases hname : p.toolName? with
  | none =>
    cases p with
    | toolStart => cases hname
    | toolCall => cases hname
    | toolEnd => cases hname
    | _ =>
      simp only [Packet.type, Packet.payload, Packet.handler, Payload.ofType]
      decide
  | some name =>
    obtain ⟨phase, hphase, htype, hhandler, hkind⟩ := type_of_toolName dump hname
    rw [htype, hhandler, hkind]
    exact (toolType_spec name (toolName_of_isSent h hname) phase hphase).2.1

/-- **Each packet reaches the handler of its type.** -/
theorem routePacket_sse {codec : JsonCodec M J} {p : Packet M} (h : p.isSent = true)
    (hparse : codec.parse (codec.dumpJson p) = some (p.payload codec.dump)) :
    routePacket codec.parse (sse codec p) = some (p.handler, p.payload codec.dump) := by
  rw [routePacket, sse, hparse]
  simp only [handlerFor_type codec.dump h, Option.map_some]

/-- The handler of a tool packet reads the tool's name back from the type. -/
theorem toolNameFromType_type {p : Packet M} (h : p.isSent = true) {name : String}
    (hname : p.toolName? = some name) : toolNameFromType p.type = some name := by
  obtain ⟨phase, hphase, htype, _⟩ := type_of_toolName id hname
  rw [htype]
  exact (toolType_spec name (toolName_of_isSent h hname) phase hphase).2.2

end MeJournal
