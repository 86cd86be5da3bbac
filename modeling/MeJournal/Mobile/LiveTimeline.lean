import MeJournal.Mobile.UseChatStream

/-!
# The live bubble and the bubble from history

The two folds of one packet stream: `StreamState` on the server, whose events are stored, and the
reducer on the client, whose events are shown while the stream comes in.  The assistant messages
are those of `adaptActiveTurn` and `adaptServerMessage` in `mobile/lib/chat/adapter.ts`.

* `foldPackets_fold` — the reducer's events are the server's, packet by packet.
* `serverEventsFromTurn_eq` — sorting the events by step undoes the key order of the object.
* `liveTimeline_eq_eventsList` — from the wire to the bubble, the client shows what is stored.
-/

namespace MeJournal

variable {M J : Type}

/-! ## Definitions -/

/-- The action that an event of the stream leads to. -/
def wireAction (codec : JsonCodec M J) (event : SseEvent) : Option (ChatAction J) :=
  (routePacket codec.parse event).bind fun (handler, payload) => handler.action payload

/-- The reducer's state after the events of a stream. -/
def receiveAll (codec : JsonCodec M J) (state : ChatState J) (events : List SseEvent) :
    ChatState J :=
  (events.filterMap (wireAction codec)).foldl reducer state

/-- `StreamState` after a packet sequence. -/
def StreamState.foldAll (dump : M → J) (ps : List (Packet M)) : StreamState J :=
  ps.foldl (StreamState.fold dump) .new

/-- An assistant's `RenderMessage`: its text, and the events that the tool renderers read. -/
structure Bubble (J : Type) where
  text : Text
  events : List (Event J)
  deriving DecidableEq

/-- The assistant message of `adaptActiveTurn`. -/
def adaptActiveTurn (turn : ActiveTurn J) : Bubble J :=
  let events := serverEventsFromTurn turn
  ⟨contentOf events, events⟩

/-- `adaptServerMessage` of an assistant message. -/
def adaptServerMessage (content : Text) (events : Option (List (Event J))) : Bubble J :=
  ⟨content, events.getD []⟩

/-! ## One packet -/

/-- Every event sits under its own step. -/
def StepKeyed (events : Dict Int (Event J)) : Prop := ∀ r ∈ events.rows, r.2.step = r.1

theorem stepKeyed_new : StepKeyed (StreamState.new : StreamState J).events := nofun

theorem StepKeyed.set {events : Dict Int (Event J)} (h : StepKeyed events) {step : Int}
    {e : Event J} (he : e.step = step) : StepKeyed (events.set step e) := by
  intro r hr
  rcases Dict.mem_set hr with rfl | hr
  · exact he
  · exact h r hr

theorem StepKeyed.step_of_get? {events : Dict Int (Event J)} (h : StepKeyed events) {step : Int}
    {e : Event J} (he : events.get? step = some e) : e.step = step :=
  h (step, e) (Dict.get?_eq_some.1 he)

/-- The text event that a delta leaves at its step. -/
def textRecord (events : Dict Int (Event J)) (step : Int) (delta : Text) : TextEvent :=
  match events.get? step with
  | some (.text existing) => { existing with content := existing.content ++ delta }
  | _ => ⟨step, delta⟩

theorem StepKeyed.textRecord_step {events : Dict Int (Event J)} (h : StepKeyed events) (step : Int)
    (delta : Text) : (textRecord events step delta).step = step := by
  unfold textRecord
  split
  · rename_i existing hget
    exact h.step_of_get? hget
  · rfl

theorem fold_textDelta (dump : M → J) (st : StreamState J) (step : Int) (delta : Text) :
    st.fold dump (.textDelta (some step) delta) =
      { st with events := st.events.set step (.text (textRecord st.events step delta)) } := by
  simp only [StreamState.fold, textRecord]
  cases st.events.get? step with
  | none => rfl
  | some e => cases e <;> rfl

theorem foldPackets_textDelta (dump : M → J) (turn : ActiveTurn J) (step : Int) (delta : Text) :
    foldPackets dump ⟨some turn⟩ [.textDelta (some step) delta] =
      ⟨some (turn.setEvent step (.text (textRecord turn.events step delta)))⟩ := by
  simp only [foldPackets, List.filterMap_cons, Packet.action, List.filterMap_nil, List.foldl_cons,
    List.foldl_nil, reducer, ChatState.updateTurn, textRecord]
  cases turn.events.get? step with
  | none => rfl
  | some e => cases e <;> rfl

/-- The record at a step has that step. -/
theorem StepKeyed.toolRecord_step {events : Dict Int (Event J)} (h : StepKeyed events) (step : Int)
    (id tool : String) : (StreamState.toolRecord events step id tool).1.step = step := by
  unfold StreamState.toolRecord
  split
  · rename_i existing hget
    exact h.step_of_get? hget
  · rfl

/-- The client's record is the server's. -/
theorem toolBase_eq (turn : ActiveTurn J) (step : Int) (id tool : String) :
    toolBase turn step id tool = (StreamState.toolRecord turn.events step id tool).1 := by
  unfold toolBase StreamState.toolRecord
  cases turn.events.get? step with
  | none => rfl
  | some e => cases e <;> rfl

/-- A tool packet: the client overwrites its step with the refined record. -/
theorem foldPackets_tool (dump : M → J) (turn : ActiveTurn J) {p : Packet M} {id name : String}
    (hid : p.toolCallId? = some id) (hname : p.toolName? = some name) (step : Int) :
    foldPackets dump ⟨some turn⟩ [p.withStep (some step)] =
      ⟨some (turn.setEvent step
        (.tool (Timeline.refine dump p (toolBase turn step id name))))⟩ := by
  cases p with
  | toolStart => cases hid; cases hname; rfl
  | toolCall => cases hid; cases hname; rfl
  | toolEnd => cases hid; cases hname; rfl
  | _ => cases hid

/-- **One packet**: both sides keep every event under its step, and change their events alike. -/
theorem foldPackets_fold (dump : M → J) {turn : ActiveTurn J} {st : StreamState J}
    (h : turn.events = st.events) (hkeyed : StepKeyed st.events) {p : Packet M}
    (hp : p.isStreamed = true) :
    ∃ turn', foldPackets dump ⟨some turn⟩ [p] = ⟨some turn'⟩ ∧
      turn'.events = (st.fold dump p).events ∧ StepKeyed (st.fold dump p).events := by
  have htool : ∀ (q : Packet M) (step : Int) (id name : String), q.toolCallId? = some id →
      q.toolName? = some name → q.withStep (some step) = p →
      ∃ turn', foldPackets dump ⟨some turn⟩ [p] = ⟨some turn'⟩ ∧
        turn'.events = (st.fold dump p).events ∧ StepKeyed (st.fold dump p).events := by
    rintro q step id name hid hname rfl
    rw [fold_tool dump st hid hname, foldPackets_tool dump turn hid hname, toolBase_eq, h]
    refine ⟨_, rfl, congrArg (fun events => Dict.set events step _) h, hkeyed.set ?_⟩
    rw [Event.step, Timeline.refine_step, hkeyed.toolRecord_step]
  cases p with
  | textDelta step delta =>
    cases step with
    | none => cases hp
    | some step =>
      rw [foldPackets_textDelta, fold_textDelta, h]
      exact ⟨_, rfl, congrArg (fun events => Dict.set events step _) h,
        hkeyed.set (hkeyed.textRecord_step step delta)⟩
  | toolStart step id name =>
    cases step with
    | none => cases hp
    | some step => exact htool (.toolStart none id name) step id name rfl rfl rfl
  | toolCall step id name arguments =>
    cases step with
    | none => cases hp
    | some step => exact htool (.toolCall none id name arguments) step id name rfl rfl rfl
  | toolEnd step id name status result err =>
    cases step with
    | none => cases hp
    | some step => exact htool (.toolEnd none id name status result err) step id name rfl rfl rfl
  | error code message => exact ⟨_, rfl, h, hkeyed⟩
  | start => cases hp
  | finish => cases hp

/-! ## The whole stream -/

/-- **Run lemma.** -/
theorem foldPackets_foldAll (dump : M → J) {turn : ActiveTurn J} {st : StreamState J}
    (h : turn.events = st.events) (hkeyed : StepKeyed st.events) {ps : List (Packet M)}
    (hps : ∀ p ∈ ps, p.isStreamed = true) :
    ∃ turn', foldPackets dump ⟨some turn⟩ ps = ⟨some turn'⟩ ∧
      turn'.events = (ps.foldl (StreamState.fold dump) st).events ∧ StepKeyed turn'.events := by
  induction ps generalizing turn st with
  | nil => exact ⟨turn, rfl, h, h ▸ hkeyed⟩
  | cons p ps ih =>
    rw [List.forall_mem_cons] at hps
    obtain ⟨turn', hturn', hevents, hkeyed'⟩ := foldPackets_fold dump h hkeyed hps.1
    obtain ⟨turn'', hturn'', hrest⟩ := ih hevents hkeyed' hps.2
    refine ⟨turn'', ?_, hrest⟩
    rw [← List.singleton_append, foldPackets_append, hturn', hturn'']

/-- The actions of a packet's event are the packet's. -/
theorem receiveAll_sse {codec : JsonCodec M J} (state : ChatState J) {ps : List (Packet M)}
    (hps : ∀ p ∈ ps, p.isStreamed = true)
    (hjson : ∀ p ∈ ps, codec.parse (codec.dumpJson p) = some (p.payload codec.dump)) :
    receiveAll codec state (ps.map (sse codec)) = foldPackets codec.dump state ps := by
  rw [receiveAll, foldPackets, List.filterMap_map]
  congr 1
  refine List.filterMap_congr fun p hp => ?_
  have hsent : p.isSent = true := by simp [Packet.isSent, hps p hp]
  rw [Function.comp_apply, wireAction, routePacket_sse hsent (hjson p hp)]
  exact action_payload codec.dump hsent

/-! ## The order of the events -/

/-- No events dump to `None`. -/
theorem eventsList_getD (st : StreamState J) : st.eventsList.getD [] = st.sortedEvents := by
  unfold StreamState.eventsList
  split
  · rename_i hempty
    rw [List.isEmpty_iff] at hempty
    simp [StreamState.sortedEvents, Dict.keys, hempty]
  · rfl

/-- The keys in the order of `Object.values`. -/
theorem objectKeys_perm (keys : List Int) :
    ((keys.filter isArrayIndex).insertionSort (· ≤ ·) ++
      keys.filter fun key => !isArrayIndex key).Perm (keys.insertionSort (· ≤ ·)) := by
  have hsplit : (keys.filter isArrayIndex ++ keys.filter fun key => !isArrayIndex key).Perm keys :=
    List.filter_append_perm isArrayIndex keys
  exact ((List.perm_insertionSort _ _).append_right _).trans
    (hsplit.trans (List.perm_insertionSort _ _).symm)

/-- **Sorting by step gives the events in the order of their keys**, whatever the order in which
the object lists them. -/
theorem serverEventsFromTurn_eq {turn : ActiveTurn J} (h : StepKeyed turn.events) :
    serverEventsFromTurn turn =
      (turn.events.keys.insertionSort (· ≤ ·)).filterMap turn.events.get? := by
  have hperm : (objectValues turn.events).Perm
      ((turn.events.keys.insertionSort (· ≤ ·)).filterMap turn.events.get?) :=
    (objectKeys_perm turn.events.keys).filterMap _
  have hsorted : ((turn.events.keys.insertionSort (· ≤ ·)).filterMap turn.events.get?).Pairwise
      fun a b => a.step ≤ b.step := by
    refine (List.pairwise_insertionSort (· ≤ ·) turn.events.keys).filterMap _ ?_
    intro k k' hle e he e' he'
    rw [h.step_of_get? he, h.step_of_get? he']
    exact hle
  have hunique : ∀ e ∈ objectValues turn.events, ∀ f ∈ objectValues turn.events,
      e.step = f.step → e = f := by
    intro e he f hf hstep
    obtain ⟨k, _, hk⟩ := List.mem_filterMap.1 he
    obtain ⟨l, _, hl⟩ := List.mem_filterMap.1 hf
    rw [h.step_of_get? hk, h.step_of_get? hl] at hstep
    rw [hstep, hl] at hk
    exact (Option.some.inj hk).symm
  have : Std.Total fun a b : Event J => a.step ≤ b.step := ⟨fun a b => le_total a.step b.step⟩
  have : IsTrans (Event J) fun a b => a.step ≤ b.step := ⟨fun a b c => le_trans⟩
  refine ((List.perm_insertionSort _ _).trans hperm).eq_of_pairwise ?_
    (List.pairwise_insertionSort _ _) hsorted
  intro e f he hf hef hfe
  rw [serverEventsFromTurn, List.mem_insertionSort] at he
  exact hunique e he f (hperm.mem_iff.2 hf) (le_antisymm hef hfe)

/-- **What the client shows while the stream comes in is what the server stores**, for content and
error packets with any steps, ids and order. -/
theorem liveTimeline_eq_eventsList {codec : JsonCodec M J} (state : ChatState J)
    (clientMessageId : UUID) (userText : Text) (startedAt : Time) {ps : List (Packet M)}
    (hps : ∀ p ∈ ps, p.isStreamed = true)
    (hjson : ∀ p ∈ ps, codec.parse (codec.dumpJson p) = some (p.payload codec.dump)) :
    ∃ turn, (receiveAll codec (reducer state (.turnStart clientMessageId userText startedAt))
        (ps.map (sse codec))).activeTurn = some turn ∧
      serverEventsFromTurn turn = (StreamState.foldAll codec.dump ps).eventsList.getD [] ∧
      contentOf (serverEventsFromTurn turn) =
        (StreamState.foldAll codec.dump ps).assistantContent ∧
      adaptActiveTurn turn = adaptServerMessage (StreamState.foldAll codec.dump ps).assistantContent
        (StreamState.foldAll codec.dump ps).eventsList := by
  have hstart : (startedTurn clientMessageId userText startedAt : ActiveTurn J).events =
      (StreamState.new : StreamState J).events := rfl
  obtain ⟨turn, hturn, hevents, hkeyed'⟩ := foldPackets_foldAll codec.dump hstart stepKeyed_new hps
  have hsorted : serverEventsFromTurn turn =
      (StreamState.foldAll codec.dump ps).sortedEvents := by
    rw [serverEventsFromTurn_eq hkeyed', hevents]
    rfl
  have hlist : serverEventsFromTurn turn =
      (StreamState.foldAll codec.dump ps).eventsList.getD [] := by
    rw [hsorted, eventsList_getD]
  have hcontent : contentOf (serverEventsFromTurn turn) =
      (StreamState.foldAll codec.dump ps).assistantContent := by
    rw [hsorted]
    rfl
  refine ⟨turn, ?_, hlist, hcontent, ?_⟩
  · rw [receiveAll_sse _ hps hjson]
    exact congrArg ChatState.activeTurn hturn
  · exact congrArg₂ Bubble.mk hcontent hlist

/-! ## A step that changes its kind -/

/-- A delta at a step that is no array index, a call without a start at a negative step, the end
of another call there, and a delta that replaces both. -/
def mixedPackets : List (Packet Unit) :=
  [.textDelta (some 4294967296) ['a'], .toolCall (some (-1)) "c1" "search_memories" (),
    .toolEnd (some (-1)) "c2" "manage_memory" .ok (some ()) none, .textDelta (some (-1)) ['b']]

/-- Their JSON texts. -/
def mixedJson : List (Packet Unit × Text) :=
  mixedPackets.zip <| List.map String.toList
    ["\x7b\"type\":\"text_delta\",\"kind\":\"text\",\"step\":4294967296,\"delta\":\"a\"\x7d",
      "\x7b\"kind\":\"tool\",\"step\":-1,\"tool_call_id\":\"c1\",\"arguments\":\x7b\x7d," ++
        "\"type\":\"search_memories_call\"\x7d",
      "\x7b\"kind\":\"tool\",\"step\":-1,\"tool_call_id\":\"c2\",\"status\":\"ok\"," ++
        "\"result\":\x7b\x7d,\"error\":null,\"type\":\"manage_memory_end\"\x7d",
      "\x7b\"type\":\"text_delta\",\"kind\":\"text\",\"step\":-1,\"delta\":\"b\"\x7d"]

def mixedCodec : JsonCodec Unit Unit where
  dump := id
  dumpJson := fun p => ((mixedJson.find? fun entry => entry.1 = p).map Prod.snd).getD []
  parse := fun text => (mixedJson.find? fun entry => entry.2 = text).map fun entry =>
    entry.1.payload id

theorem liveTimeline_eq_eventsList_mixed :
    ((receiveAll mixedCodec (reducer initialState (.turnStart 1 ['h', 'i'] 0))
        (mixedPackets.map (sse mixedCodec))).activeTurn.map serverEventsFromTurn) =
      some [.text ⟨-1, ['b']⟩, .text ⟨4294967296, ['a']⟩] := by
  have hstreamed : ∀ p ∈ mixedPackets, p.isStreamed = true := by decide
  have hjson : ∀ p ∈ mixedPackets,
      mixedCodec.parse (mixedCodec.dumpJson p) = some (p.payload mixedCodec.dump) := by
    decide +kernel
  obtain ⟨turn, hturn, hevents, _⟩ := liveTimeline_eq_eventsList initialState 1 ['h', 'i'] 0
    hstreamed hjson
  rw [hturn, Option.map_some, hevents]
  decide +kernel

end MeJournal
