import MeJournal.Agents.CallIds
import MeJournal.Agents.Results
import MeJournal.Mobile.Delivery
import MeJournal.Mobile.MemoryCards
import MeJournal.Mobile.ReplayRoundTrip

/-!
# The memory card of a reply

`lib/chat/tool-renderers.ts`: the card that a reply shows is made from the `result` of one of its
tool events, the JSON dump of what the tool returned.

* `dumpModel` — `model_dump(mode="json")` of the arguments and results of the tools.
* `applyToolRenderers` — the card of a list of events.
* `toMemoryCard_viewJson` — the card of a dumped memory.
* `cards_stored` — a reply's card is of a live memory of the user, at every point of the stream; if
  no two calls share an id, it is that of the turn's first write.
-/

namespace MeJournal

namespace MemoryCards

open Tools ManageMemory Patches

/-! ## JSON dumps -/

/-- A field that may be `null`. -/
def jsonOr {α : Type} (f : α → Json.Value PyFloat) : Option α → Json.Value PyFloat
  | none => .null
  | some a => f a

def jsonText (t : Text) : Json.Value PyFloat := .str t

/-- `MemoryAgentView`. -/
def viewJson (view : MemoryAgentView) : JsonObject :=
  [("id".toList, .str (uuidText view.id)), ("text".toList, .str view.text),
    ("event_date".toList, .str view.eventDate.isoformat),
    ("event_time".toList, jsonOr (fun clock => .str (EventTime.dumpTime ⟨clock, none⟩))
      view.eventTime),
    ("event_tz".toList, .str view.eventTz),
    ("location_lat".toList, jsonOr Json.Value.float view.locationLat),
    ("location_lng".toList, jsonOr Json.Value.float view.locationLng),
    ("location_label".toList, jsonOr jsonText view.locationLabel)]

/-- `SearchHit` of the tool. -/
def hitJson (hit : ToolHit) : JsonObject :=
  [("memory_id".toList, .str (uuidText hit.memoryId)),
    ("event_date".toList, .str hit.eventDate.isoformat),
    ("text_preview".toList, .str hit.textPreview),
    ("similarity".toList, jsonOr Json.Value.float hit.similarity)]

def sourceText : SearchSource → Text
  | .supermemory => "supermemory".toList
  | .local => "local".toList

/-- `ManageMemoryArgs`. -/
def argsJson (args : ManageMemoryArgs) : JsonObject :=
  let input := args.dump
  [("action".toList, .str input.action), ("memory_id".toList, jsonOr jsonText input.memoryId),
    ("text".toList, jsonOr jsonText input.text),
    ("event_date".toList, jsonOr jsonText input.eventDate),
    ("event_time".toList, jsonOr (fun t => .str (EventTime.dumpTime t)) args.eventTime),
    ("event_tz".toList, jsonOr jsonText input.eventTz),
    ("location_lat".toList, jsonOr Json.Value.float input.locationLat),
    ("location_lng".toList, jsonOr Json.Value.float input.locationLng),
    ("location_label".toList, jsonOr jsonText input.locationLabel),
    ("idempotency_id".toList, jsonOr jsonText input.idempotencyId)]

/-- `model_dump(mode="json")`. -/
def dumpModel : ToolModel → JsonObject
  | .searchMemoriesArgs args => [("q".toList, .str args.q), ("limit".toList, .int args.limit)]
  | .manageMemoryArgs args => argsJson args
  | .searchMemoriesResult result =>
    [("source".toList, .str (sourceText result.source)),
      ("hits".toList, .arr (result.hits.map fun hit => .obj (hitJson hit)))]
  | .memoryDetailResult memory =>
    [("kind".toList, .str "memory".toList), ("memory".toList, .obj (viewJson memory))]

/-! ## The renderers -/

/-- `renderers.manage_memory`; a `memory` that is no object has no `id`. -/
def manageMemoryCard (dev : Device) (event : ToolEvent JsonObject) : Option MemoryCard :=
  match event.status, event.result with
  | some .ok, some result =>
    match Json.get result "memory".toList with
    | some (.obj memory) => toMemoryCard dev memory
    | _ => none
  | _, _ => none

/-- What the registry makes of a tool event. -/
def toolCard (dev : Device) (event : ToolEvent JsonObject) : Option MemoryCard :=
  if event.tool = "manage_memory" then manageMemoryCard dev event else none

/-- `applyToolRenderers`, its `memoryAdded`; a card that is set stays. -/
def applyToolRenderers (dev : Device) (events : List (Event JsonObject)) : Option MemoryCard :=
  events.foldl (fun merged event => merged.or (event.tool?.bind (toolCard dev))) none

/-- The events of a reply after packets of the agent. -/
def replyEvents (ps : List (Packet ToolModel)) : List (Event JsonObject) :=
  ((TurnState.new : TurnState JsonObject).acceptAll dumpModel ps).2.state.sortedEvents

/-- The events that the reply is drawn from: while its stream comes in, after the agent has yielded
`ps`, or from the history, when `ps` was all. -/
inductive Drawn (turn : ChatTurn) (id : UUID) (ps : List (Packet ToolModel)) :
    List (Event JsonObject) → Prop
  | live {raised : Option PyExc} {m : SentMessage} {active : ActiveTurn JsonObject}
      (h : (foldPackets dumpModel m.started
        (streamBody dumpModel turn id ⟨ps, raised⟩).1).activeTurn = some active) :
      Drawn turn id ps (serverEventsFromTurn active)
  | stored {row : AssistantRow JsonObject} {raised : Option PyExc}
      (h : (streamBody dumpModel turn id ⟨ps, raised⟩).2.1 = some row) :
      Drawn turn id ps (row.events.getD [])

/-- The card of a memory. -/
def viewCard (view : MemoryAgentView) : MemoryCard where
  id := uuidText view.id
  date := some (midnight view.eventDate)
  title := deriveTitle view.text
  excerpt := view.text
  tags := ["journal"]
  location := view.locationLabel

/-- The card of a result. -/
def resultCard : ToolModel → Option MemoryCard
  | .memoryDetailResult view => some (viewCard view)
  | _ => none

/-! ## One event -/

theorem uuidText_ne_nil (u : UUID) : uuidText u ≠ [] := by
  intro hnil
  have hparsed := uuidOf_uuidText u
  rw [hnil] at hparsed
  cases hparsed

/-- The card of a dumped memory. -/
theorem toMemoryCard_viewJson (dev : Device) (view : MemoryAgentView) :
    toMemoryCard dev (viewJson view) = some (viewCard view) := by
  have hid : stringField (viewJson view) "id" = some (uuidText view.id) := rfl
  have htext : stringField (viewJson view) "text" = some view.text := rfl
  have hdate : stringField (viewJson view) "event_date" = some view.eventDate.isoformat := rfl
  have hlabel : stringField (viewJson view) "location_label" = view.locationLabel := by
    obtain ⟨id, text, eventDate, eventTime, eventTz, lat, lng, label⟩ := view
    cases label <;> rfl
  have hempty : ((uuidText view.id).isEmpty || view.eventDate.isoformat.isEmpty) = false := by
    simp [uuidText_ne_nil, isoformat_ne_nil]
  simp only [toMemoryCard, hid, htext, hdate, hlabel, hempty, parse_date, Bool.false_eq_true,
    if_false, Option.getD_some]
  rfl

/-- Only the result of a write has a memory. -/
theorem manageMemoryCard_dump (dev : Device) {event : ToolEvent JsonObject} {r : ToolModel}
    (hresult : event.result = some (dumpModel r)) (hstatus : event.status = some .ok) :
    manageMemoryCard dev event = resultCard r := by
  unfold manageMemoryCard
  rw [hstatus, hresult]
  cases r with
  | searchMemoriesArgs args => rfl
  | manageMemoryArgs args => rfl
  | searchMemoriesResult result => rfl
  | memoryDetailResult memory => exact toMemoryCard_viewJson dev memory

/-! ## The events of a reply -/

/-- The first card of the tool events. -/
theorem applyToolRenderers_eq (dev : Device) (events : List (Event JsonObject)) :
    applyToolRenderers dev events = (events.filterMap Event.tool?).findSome? (toolCard dev) := by
  have hfold : ∀ (events : List (Event JsonObject)) (merged : Option MemoryCard),
      events.foldl (fun merged event => merged.or (event.tool?.bind (toolCard dev))) merged =
        merged.or ((events.filterMap Event.tool?).findSome? (toolCard dev)) := by
    intro events
    induction events with
    | nil => intro merged; simp
    | cons event events ih =>
      intro merged
      rw [List.foldl_cons, ih, Option.or_assoc]
      cases event with
      | text e =>
        rw [List.filterMap_cons_none (by rfl)]
        simp [Event.tool?]
      | tool e =>
        rw [List.filterMap_cons_some (by rfl)]
        cases hcard : toolCard dev e <;> simp [Event.tool?, hcard]
  exact hfold events none

/-- A tool event has what the packets of its id told last. -/
theorem replyEvents_recordOf {ps : List (Packet ToolModel)} {e : ToolEvent JsonObject}
    (he : .tool e ∈ replyEvents ps) : ∃ id, RecordOf dumpModel ps id e := by
  have hrefines := acceptAll_refines dumpModel
    (refines_new : Refines (TurnState.new : TurnState JsonObject) _) ps
  rw [replyEvents, hrefines.sortedEvents] at he
  have hmem : e.summary ∈ Timeline.summaries (Timeline.new.addAll dumpModel ps).events :=
    List.mem_map_of_mem (List.mem_filterMap.2 ⟨.tool e, he, rfl⟩)
  rw [Timeline.summaries_addAll (J := JsonObject) dumpModel ps] at hmem
  obtain ⟨id, -, hsummary⟩ := List.mem_map.1 hmem
  exact ⟨id, recordOf_of_summary hsummary.symm⟩

/-- The result that a tool event shows went out in a packet. -/
theorem recordOf_shown {ps : List (Packet ToolModel)} {id : String} {e : ToolEvent JsonObject}
    (h : RecordOf dumpModel ps id e) {json : JsonObject} (hresult : e.result = some json) :
    ∃ r ∈ shown ps, json = dumpModel r := by
  have hend := hresult.symm.trans h.result
  obtain ⟨r, hr, hjson⟩ := Option.map_eq_some_iff.1 hend.symm
  obtain ⟨last, hlast, hr⟩ := Option.bind_eq_some_iff.1 hr
  obtain ⟨p, hp, hpend⟩ := List.mem_filterMap.1 (List.mem_of_getLast? hlast)
  refine ⟨r, List.mem_filterMap.2 ⟨p, List.mem_of_mem_filter hp, ?_⟩, hjson.symm⟩
  cases p with
  | toolEnd =>
    cases hpend
    exact hr
  | _ => cases hpend

/-- **A card comes from a write that was shown.** -/
theorem card_of_shown {dev : Device} {ps : List (Packet ToolModel)} {card : MemoryCard}
    (h : applyToolRenderers dev (replyEvents ps) = some card) :
    ∃ view, ToolModel.memoryDetailResult view ∈ shown ps ∧ card = viewCard view := by
  rw [applyToolRenderers_eq] at h
  obtain ⟨e, he, hcard⟩ := List.exists_of_findSome?_eq_some h
  obtain ⟨event, hevent, htool⟩ := List.mem_filterMap.1 he
  cases event with
  | text e' => cases htool
  | tool e' =>
    obtain rfl := Option.some.inj htool
    obtain ⟨id, hrecord⟩ := replyEvents_recordOf hevent
    unfold toolCard at hcard
    split at hcard
    · have hcard' := hcard
      unfold manageMemoryCard at hcard'
      split at hcard'
      · rename_i result hstatus hresult
        obtain ⟨r, hr, rfl⟩ := recordOf_shown hrecord hresult
        rw [manageMemoryCard_dump dev hresult hstatus] at hcard
        cases r with
        | memoryDetailResult view => exact ⟨view, hr, (Option.some.inj hcard).symm⟩
        | _ => cases hcard
      · cases hcard'
    · cases hcard

/-! ## What is drawn -/

section Sent

variable {W M J : Type}

/-- What a run of the agent yields: text deltas without a step, packets of known tools, errors. -/
def Yields (p : Packet M) : Prop :=
  (∃ delta, p = .textDelta none delta) ∨ (∃ name ∈ toolClassByName, p.toolName? = some name) ∨
    p.isError = true

/-- Every executed call was taken up by `_run_one_tool`. -/
theorem mem_runSegments {pf : Platform} {env : AgentEnv W M} {input : AgentInput}
    {s : RuntimeState W} {e : ExecutedCall M} (h : .tool e ∈ runSegments pf env input s) :
    ∃ w tc, executeTool env w tc = some e := by
  unfold runSegments at h
  split at h
  · cases h
  · exact mem_loopSegments h

theorem yields_run (pf : Platform) (env : AgentEnv W M) (input : AgentInput)
    (s : RuntimeState W) : ∀ p ∈ (runAgentStream pf env input s).emitted, Yields p := by
  intro p hp
  obtain ⟨last, hemitted, hlast⟩ := runAgentStream_segments pf env input s
  rw [hemitted, List.mem_append] at hp
  rcases hp with hp | hp
  · obtain ⟨segment, hsegment, hp⟩ := List.mem_flatMap.1 hp
    cases segment with
    | text delta => exact .inl ⟨delta, List.mem_singleton.1 hp⟩
    | tool e =>
      obtain ⟨w, tc, hexecuted⟩ := mem_runSegments hsegment
      refine .inr (.inl ⟨e.call.name, (executeTool_arguments hexecuted).1, ?_⟩)
      rw [Segment.packets, ExecutedCall.packets, List.mem_cons, List.mem_append,
        List.mem_singleton, Option.mem_toList, Option.map_eq_some_iff] at hp
      rcases hp with rfl | ⟨args, -, rfl⟩ | rfl <;> rfl
  · exact .inr (.inr (hlast p hp))

/-- A packet goes out with its step. -/
theorem accept_streamed (dump : M → J) {t : TurnState J} {tl : Timeline J} (h : Refines t tl)
    {p : Packet M} (hp : Yields p) : (t.accept dump p).1.isStreamed = true := by
  rcases hp with ⟨delta, rfl⟩ | ⟨name, hname, htool⟩ | herror
  · rw [(accept_text dump h delta).1]
    rfl
  · have hstep : ∀ id, (t.assigner.stepForTool id).1.isSome = true := by
      intro id
      unfold StepAssigner.stepForTool
      split <;> rfl
    cases p <;> cases htool <;>
      simp [TurnState.accept, StepAssigner.stepFor, hstep, Packet.withStep, Packet.isStreamed,
        hname]
  · cases p <;> cases herror
    rfl

theorem acceptAll_streamed (dump : M → J) {t : TurnState J} {tl : Timeline J} (h : Refines t tl)
    {ps : List (Packet M)} (hps : ∀ p ∈ ps, Yields p) :
    ∀ p ∈ (t.acceptAll dump ps).1, p.isStreamed = true := by
  induction ps generalizing t tl with
  | nil => exact nofun
  | cons p ps ih =>
    rw [List.forall_mem_cons] at hps
    rw [acceptAll_cons, List.forall_mem_cons]
    exact ⟨accept_streamed dump h hps.1, ih (accept_refines dump h p) hps.2⟩

end Sent

theorem streamBody_emitted (turn : ChatTurn) (id : UUID) (run : AgentRun ToolModel) :
    (streamBody dumpModel turn id run).1 =
      .start id turn.sessionId :: ((TurnState.new : TurnState JsonObject).acceptAll dumpModel
        run.packets).1 := by
  unfold streamBody
  dsimp only
  split
  · rfl
  · split <;> rfl

/-- **Live and from the history, the events are those that the packets fold to.** -/
theorem drawn_eq {turn : ChatTurn} {id : UUID} {ps : List (Packet ToolModel)}
    (hps : ∀ p ∈ ps, Yields p) {events : List (Event JsonObject)} (h : Drawn turn id ps events) :
    events = replyEvents ps := by
  have hstate := Delivery.acceptAll_state dumpModel (TurnState.new : TurnState JsonObject) ps
  cases h with
  | @live raised m active hactive =>
    let started : ActiveTurn JsonObject :=
      { startedTurn m.clientMessageId m.userText m.startedAt with assistantMessageId := some id }
    have hstart : started.events = (StreamState.new : StreamState JsonObject).events := rfl
    have hsent := acceptAll_streamed dumpModel
      (refines_new : Refines (TurnState.new : TurnState JsonObject) _) hps
    obtain ⟨active', hfold, hevents, hkeyed⟩ :=
      foldPackets_foldAll dumpModel hstart stepKeyed_new hsent
    rw [streamBody_emitted, ← List.singleton_append, foldPackets_append] at hactive
    have hsame := (congrArg ChatState.activeTurn hfold).symm.trans hactive
    obtain rfl : active' = active := Option.some.inj hsame
    rw [serverEventsFromTurn_eq hkeyed, hevents, replyEvents, hstate]
    rfl
  | @stored row raised hrow =>
    obtain ⟨hpersist, rfl⟩ := streamBody_row.1 hrow
    exact eventsList_getD _

/-! ## Calls with ids of their own -/

section Calls

variable {W M : Type}

theorem shown_append (ps qs : List (Packet M)) : shown (ps ++ qs) = shown ps ++ shown qs :=
  List.filterMap_append

theorem shown_call (e : ExecutedCall M) : shown e.packets = e.result.toList := by
  unfold shown ExecutedCall.packets
  cases e.arguments <;> cases e.result <;> rfl

/-- The results that a run shows are those of its calls. -/
theorem shown_runAgentStream (pf : Platform) (env : AgentEnv W M) (input : AgentInput)
    (s : RuntimeState W) :
    shown (runAgentStream pf env input s).emitted =
      (runCalls pf env input s).filterMap ExecutedCall.result := by
  obtain ⟨last, hemitted, hlast⟩ := runAgentStream_segments pf env input s
  have hnone : shown last = [] := by
    rw [shown, List.filterMap_eq_nil_iff]
    intro p hp
    have herror := hlast p hp
    cases p <;> cases herror
    rfl
  rw [hemitted, shown_append, hnone, List.append_nil, runCalls]
  induction runSegments pf env input s with
  | nil => rfl
  | cons segment segments ih =>
    rw [List.flatMap_cons, shown_append, ih]
    cases segment with
    | text delta => rfl
    | tool e =>
      have hpackets : (Segment.tool e).packets = e.packets := rfl
      have hcall : (Segment.tool e).call? = some e := rfl
      rw [hpackets, shown_call, List.filterMap_cons_some hcall]
      cases hresult : e.result with
      | none => rw [List.filterMap_cons_none hresult]; rfl
      | some r => rw [List.filterMap_cons_some hresult]; rfl

end Calls

variable {R L V : Type}

/-- Each tool gets arguments of its own class. -/
theorem validateArgs_ok {lib : ToolLibrary} {tool : String} {json : Text} {args : ToolModel}
    (h : validateArgs lib tool json = .ok args) :
    (tool = "search_memories" ∧ ∃ a, args = .searchMemoriesArgs a) ∨
      (tool ≠ "search_memories" ∧ ∃ a, args = .manageMemoryArgs a) := by
  unfold validateArgs at h
  split at h
  · rename_i htool
    split at h
    · cases h
    · split at h <;> cases h
      exact .inl ⟨htool, _, rfl⟩
  · rename_i htool
    split at h
    · cases h
    · split at h <;> cases h
      exact .inr ⟨htool, _, rfl⟩

/-- A search gives a search result, a write a memory. -/
theorem runTool_ok {service : MemoryService V} {setup : TurnSetup L} {w : TurnWorld V L}
    {args r : ToolModel} (h : (runTool service setup w args).1 = .ok r) :
    ((∃ a, args = .searchMemoriesArgs a) → ∃ s, r = .searchMemoriesResult s) ∧
      ((∃ a, args = .manageMemoryArgs a) → ∃ view, r = .memoryDetailResult view) := by
  constructor
  · rintro ⟨a, rfl⟩
    dsimp only [runTool, searchMemoriesTool] at h
    cases hsearch : (service.search setup.userId a.q a.limit w.store).1 with
    | ok found =>
      rw [hsearch] at h
      exact ⟨_, (Except.ok.inj h).symm⟩
    | error e =>
      rw [hsearch] at h
      cases h
  · rintro ⟨a, rfl⟩
    dsimp only [runTool, manageMemoryTool] at h
    cases hrow : (managedRow service (setup.clock w.ticks) setup.userId a w.store).1 with
    | ok m =>
      rw [hrow] at h
      exact ⟨_, (Except.ok.inj h).symm⟩
    | error e =>
      rw [hrow] at h
      cases h

/-- A call of the tools gives a card exactly when it has written a memory. -/
theorem executeTool_card {service : MemoryService V} {setup : TurnSetup L} {w : TurnWorld V L}
    {tc : PartialToolCall} {e : ExecutedCall ToolModel}
    (h : executeTool (agentEnv service setup) w tc = some e) (dev : Device) (step : Int) :
    toolCard dev (e.event dumpModel step) = e.result.bind resultCard := by
  have hfailed : ∀ event : ToolEvent JsonObject, event.status = some .error →
      toolCard dev event = none := by
    intro event hstatus
    simp only [toolCard, manageMemoryCard, hstatus]
    split <;> rfl
  unfold executeTool at h
  split at h
  · rename_i hknown
    split at h
    · split at h <;> cases h
      exact hfailed _ rfl
    · rename_i args hvalid
      split at h <;> cases h
      · exact hfailed _ rfl
      · rename_i r hrun
        obtain ⟨hsearched, hwritten⟩ := runTool_ok hrun
        rcases validateArgs_ok hvalid with ⟨hname, hargs⟩ | ⟨hname, hargs⟩
        · obtain ⟨s, rfl⟩ := hsearched hargs
          simp [toolCard, ExecutedCall.event, hname, resultCard]
        · obtain ⟨view, rfl⟩ := hwritten hargs
          have htool : tc.name = "manage_memory" := by
            simpa [toolClassByName, hname] using hknown
          rw [toolCard, if_pos (by exact htool),
            manageMemoryCard_dump dev (r := .memoryDetailResult view) rfl rfl]
          rfl
  · cases h

/-- With ids of their own, the first card is that of the first write. -/
theorem card_of_calls {dev : Device} {calls : List (ExecutedCall ToolModel)} {steps : List Int}
    (hlength : steps.length = calls.length)
    (hcalls : ∀ e ∈ calls, ∀ step,
      toolCard dev (e.event dumpModel step) = e.result.bind resultCard) :
    (calls.zipWith (fun call step => call.event dumpModel step) steps).findSome? (toolCard dev) =
      (calls.filterMap ExecutedCall.result).findSome? resultCard := by
  induction calls generalizing steps with
  | nil => simp
  | cons e calls ih =>
    obtain ⟨step, steps, rfl⟩ := List.exists_cons_of_length_eq_add_one hlength
    rw [List.forall_mem_cons] at hcalls
    have hrest := ih (Nat.succ.inj hlength) hcalls.2
    rw [List.zipWith_cons_cons, List.findSome?_cons, hcalls.1 step, hrest]
    cases hresult : e.result with
    | none => rw [List.filterMap_cons_none hresult]; rfl
    | some r => rw [List.filterMap_cons_some hresult]; rfl

/-! ## The cards of a turn -/

/-- A written memory that a prefix of the turn's packets has shown. -/
theorem written_stored (pf : Platform) (sp : SearchPlatform) (client : SearchClient R)
    (setup : TurnSetup L) (input : AgentInput) (w : World R) (llm : L)
    {ps : List (Packet ToolModel)} {view : MemoryAgentView}
    (hps : ps <+: (sessionTurn pf sp client setup input w llm).emitted)
    (hview : ToolModel.memoryDetailResult view ∈ shown ps) :
    let run := sessionTurn pf sp client setup input w llm
    ∃ m ∈ run.state.world.store.db.committed.rows, m.id = view.id ∧ m.userId = setup.userId ∧
      m.live ∧ ((shown run.emitted).countP (ToolModel.rewrites m.id) = 1 → view = agentView m) := by
  intro run
  obtain ⟨later, hlater⟩ := hps
  obtain ⟨before, after, hsplit⟩ := List.append_of_mem hview
  have hall : shown run.emitted =
      before ++ .memoryDetailResult view :: (after ++ shown later) := by
    rw [← hlater, shown_append, hsplit, List.append_assoc, List.cons_append]
  obtain ⟨m, hm, hid, huser, hlive, htells⟩ := sessionTurn_current pf sp client setup input w llm
    before _ _ hall view.id (List.mem_singleton_self _)
  refine ⟨m, hm, hid, huser, hlive, fun honce => htells fun r hr => ?_⟩
  have hwrites : ToolModel.rewrites m.id (.memoryDetailResult view) = true := by
    simp [ToolModel.rewrites, hid]
  rw [hall, List.countP_append, List.countP_cons_of_pos hwrites] at honce
  have hnone : (after ++ shown later).countP (ToolModel.rewrites m.id) = 0 := by omega
  have hno := List.countP_eq_zero.1 hnone r hr
  rw [hid] at hno
  simpa using hno

/-- The finished reply, when every call has an id of its own. -/
theorem card_of_run (service : MemoryService V) (setup : TurnSetup L) (pf : Platform)
    (input : AgentInput) (s : RuntimeState (TurnWorld V L)) (dev : Device)
    (hnodup : ((runCalls pf (agentEnv service setup) input s).map fun e => e.call.id).Nodup) :
    let ps := (runAgentStream pf (agentEnv service setup) input s).emitted
    applyToolRenderers dev (replyEvents ps) = (shown ps).findSome? resultCard := by
  intro ps
  obtain ⟨last, hemitted, hlast⟩ := runAgentStream_segments pf (agentEnv service setup) input s
  obtain ⟨steps, howned⟩ := ownSteps_of_nodup dumpModel hlast hnodup
  have hcalls : ∀ e ∈ runCalls pf (agentEnv service setup) input s, ∀ step,
      toolCard dev (e.event dumpModel step) = e.result.bind resultCard := by
    intro e he step
    obtain ⟨segment, hsegment, hcall⟩ := List.mem_filterMap.1 he
    cases segment with
    | text delta => cases hcall
    | tool e' =>
      obtain rfl := Option.some.inj hcall
      obtain ⟨w, tc, hexecuted⟩ := mem_runSegments hsegment
      exact executeTool_card hexecuted dev step
  have hevents : (replyEvents ps).filterMap Event.tool? =
      (runCalls pf (agentEnv service setup) input s).zipWith
        (fun call step => call.event dumpModel step) steps := by
    rw [replyEvents, show ps = _ from hemitted]
    exact howned.events
  rw [applyToolRenderers_eq, hevents, shown_runAgentStream]
  exact card_of_calls howned.one_each hcalls

/-- **A reply's card is of a stored memory.**  Drawn at any point of the stream, or from the history
after it, a card is of a live memory of the user, and shows it as it is stored if the turn has
written that memory once.  If no two calls share an id, the finished reply has a card exactly when
a write has succeeded, that of the first. -/
theorem cards_stored (pf : Platform) (sp : SearchPlatform) (client : SearchClient R)
    (setup : TurnSetup L) (input : AgentInput) (w : World R) (llm : L) (dev : Device)
    (turn : ChatTurn) (id : UUID) :
    let run := sessionTurn pf sp client setup input w llm
    let t := run.state.world.store.db.committed
    let calls := runCalls pf (agentEnv (sessionService pf sp client) setup) input
      ⟨[], SessionStore.start w, llm, 0⟩
    (∀ ps events card, ps <+: run.emitted → Drawn turn id ps events →
      applyToolRenderers dev events = some card →
        ∃ m ∈ t.rows, card.id = uuidText m.id ∧ m.userId = setup.userId ∧ m.live ∧
          ((shown run.emitted).countP (ToolModel.rewrites m.id) = 1 →
            card = viewCard (agentView m))) ∧
    ((calls.map fun e => e.call.id).Nodup → ∀ events, Drawn turn id run.emitted events →
      applyToolRenderers dev events = (shown run.emitted).findSome? resultCard) := by
  intro run t calls
  have hyields : ∀ p ∈ run.emitted, Yields p := yields_run pf _ input _
  refine ⟨fun ps events card hps hdrawn hcard => ?_, fun hnodup events hdrawn => ?_⟩
  · obtain rfl := drawn_eq (fun p hp => hyields p (hps.subset hp)) hdrawn
    obtain ⟨view, hview, rfl⟩ := card_of_shown hcard
    obtain ⟨m, hm, hid, huser, hlive, honce⟩ :=
      written_stored pf sp client setup input w llm hps hview
    exact ⟨m, hm, congrArg uuidText hid.symm, huser, hlive, fun hone =>
      congrArg viewCard (honce hone)⟩
  · rw [drawn_eq hyields hdrawn]
    exact card_of_run (sessionService pf sp client) setup pf input _ dev hnodup

/-- The card keeps the first text of a memory that the turn rewrites. -/
example : (applyToolRenderers (deviceAt 1 (by decide)) (replyEvents writesTwiceTurn.emitted)).map
    (fun card => (card.id, card.excerpt)) = some (uuidText 3, "ran".toList) := by
  decide +kernel

end MemoryCards

end MeJournal
