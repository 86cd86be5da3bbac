import MeJournal.Chat.Timeline

/-!
# One streamed turn

`stream_turn` of `app/api/_chat_stream.py`: `start`, the stamped packets of the agent, the
insert of the assistant row, `finish`.  The insert is a parameter; `none` is an
`IntegrityError`.

* `accept_refines`, `acceptAll_refines` — the step assigner and the stream state compute the
  timeline of the packets.
* `streamTurn_spec` — what is emitted, when the row is committed, and what the row holds.
-/

namespace MeJournal

variable {M J σ : Type}

/-! ## Definitions -/

/-- The columns `record_assistant_message` inserts. -/
structure AssistantRow (J : Type) where
  id : UUID
  sessionId : UUID
  userId : UUID
  parentMessageId : UUID
  content : Text
  events : Option (List (Event J))
  deriving DecidableEq

/-- What `stream_turn` reads of its `ChatTurn`, apart from the agent's input. -/
structure ChatTurn where
  userId : UUID
  sessionId : UUID
  clientMessageId : UUID

/-- The packets `run_agent_stream` yields, and the exception it ends with, if any. -/
structure AgentRun (M : Type) where
  packets : List (Packet M)
  raised : Option PyExc

/-- What the consumer of `stream_turn` sees, and the committed row. -/
structure TurnResult (M J σ : Type) where
  emitted : List (Packet M)
  committed : Option (AssistantRow J × σ)
  raised : Option PyExc

/-- The row of a finished stream. -/
def assistantRow (turn : ChatTurn) (assistantMessageId : UUID) (state : StreamState J) :
    AssistantRow J where
  id := assistantMessageId
  sessionId := turn.sessionId
  userId := turn.userId
  parentMessageId := turn.clientMessageId
  content := state.assistantContent
  events := state.eventsList

/-- `stream_turn` up to the insert: what it emits, the row to insert, and the exception. -/
def streamBody (dump : M → J) (turn : ChatTurn) (assistantMessageId : UUID) (run : AgentRun M) :
    List (Packet M) × Option (AssistantRow J) × Option PyExc :=
  let (sent, t) := TurnState.new.acceptAll dump run.packets
  let emitted := .start assistantMessageId turn.sessionId :: sent
  match run.raised with
  | some exc => (emitted, none, some exc)
  | none =>
    if t.state.shouldPersist then
      (emitted, some (assistantRow turn assistantMessageId t.state), none)
    else (emitted, none, none)

/-- `stream_turn`; `record` is `record_assistant_message`. -/
def streamTurn (dump : M → J) (turn : ChatTurn) (assistantMessageId : UUID) (run : AgentRun M)
    (record : AssistantRow J → Option σ) : TurnResult M J σ :=
  match streamBody dump turn assistantMessageId run with
  | (emitted, none, raised) => ⟨emitted, none, raised⟩
  | (emitted, some row, _) =>
    match record row with
    | none => ⟨emitted, none, none⟩
    | some s => ⟨emitted ++ [.finish "stop" assistantMessageId], some (row, s), none⟩

/-! ## The machine refines the timeline -/

/-- The `tool_call_id` and step of a tool event. -/
def Event.slot? (e : Event J) : Option (String × Int) := e.tool?.map fun t => (t.toolCallId, t.step)

/-- The dictionaries and counters represent the timeline. -/
structure Refines (t : TurnState J) (tl : Timeline J) : Prop where
  wf : tl.WF
  events : t.state.events.rows = tl.events.map fun e => (e.step, e)
  next : t.assigner.next = tl.events.length + 1
  tools : t.assigner.toolSteps.rows = tl.events.filterMap Event.slot?
  lastKind : t.assigner.lastKind = some .text ↔ tl.openRun = true
  textStep : tl.openRun = true → t.assigner.textStep = some (tl.events.length : Int)

namespace Refines

variable {t : TurnState J} {tl : Timeline J}

theorem get?_step (h : Refines t tl) {e : Event J} (he : e ∈ tl.events) :
    t.state.events.get? e.step = some e := by
  rw [Dict.get?_eq_some, h.events]
  exact List.mem_map.2 ⟨e, he, rfl⟩

/-- Steps identify events. -/
theorem eq_of_step (h : Refines t tl) {e f : Event J} (he : e ∈ tl.events) (hf : f ∈ tl.events)
    (hstep : e.step = f.step) : e = f := by
  have hget := h.get?_step he
  rw [hstep, h.get?_step hf] at hget
  exact (Option.some.inj hget).symm

theorem step_le (h : Refines t tl) {e : Event J} (he : e ∈ tl.events) :
    e.step ≤ tl.events.length := by
  have hmem : e.step ∈ tl.events.map Event.step := List.mem_map_of_mem he
  rw [h.wf.steps, List.mem_map] at hmem
  obtain ⟨i, hi, hstep⟩ := hmem
  rw [List.mem_range'_1] at hi
  omega

/-- The next step is free. -/
theorem get?_next (h : Refines t tl) : t.state.events.get? t.assigner.next = none := by
  rw [Dict.get?_eq_none, h.events, h.next]
  intro r hr
  obtain ⟨e, he, rfl⟩ := List.mem_map.1 hr
  have hle := h.step_le he
  simp only
  omega

theorem set_next (h : Refines t tl) {e : Event J} (he : e.step = t.assigner.next) :
    (t.state.events.set t.assigner.next e).rows =
      (tl.events ++ [e]).map fun e => (e.step, e) := by
  rw [Dict.set_rows_fresh e h.get?_next, h.events, List.map_append, List.map_singleton, he]

/-- Overwriting the event at a step. -/
theorem set_step (h : Refines t tl) {e : Event J} (he : e ∈ tl.events) (e' : Event J)
    (hstep : e'.step = e.step) {es : List (Event J)}
    (hes : tl.events.map (fun f => if f.step = e.step then e' else f) = es) :
    (t.state.events.set e.step e').rows = es.map fun e => (e.step, e) := by
  rw [Dict.set_rows_of_get? e' (h.get?_step he), h.events, ← hes, List.map_map, List.map_map]
  refine List.map_congr_left fun f _ => ?_
  by_cases hf : f.step = e.step <;> simp [hf, hstep]

/-- Known tool calls are the tool events. -/
theorem toolSteps_some (h : Refines t tl) {id : String} {step : Int}
    (hget : t.assigner.toolSteps.get? id = some step) :
    ∃ e : ToolEvent J, .tool e ∈ tl.events ∧ e.toolCallId = id ∧ e.step = step := by
  rw [Dict.get?_eq_some, h.tools, List.mem_filterMap] at hget
  obtain ⟨e, he, hslot⟩ := hget
  cases e with
  | text e => simp [Event.slot?, Event.tool?] at hslot
  | tool e =>
    simp only [Event.slot?, Event.tool?, Option.map_some, Option.some.injEq, Prod.mk.injEq] at hslot
    exact ⟨e, he, hslot.1, hslot.2⟩

theorem toolSteps_of_mem (h : Refines t tl) {e : ToolEvent J} (he : .tool e ∈ tl.events) :
    t.assigner.toolSteps.get? e.toolCallId = some e.step := by
  rw [Dict.get?_eq_some, h.tools, List.mem_filterMap]
  exact ⟨.tool e, he, rfl⟩

end Refines

theorem refines_new : Refines (TurnState.new : TurnState J) Timeline.new :=
  ⟨Timeline.wf_new, rfl, rfl, rfl, by simp [TurnState.new, StepAssigner.new, Timeline.new], nofun⟩

/-! ### Text -/

theorem accept_text_refines (dump : M → J) {t : TurnState J} {tl : Timeline J}
    (h : Refines t tl) (step : Option Int) (delta : Text) :
    Refines (t.accept dump (.textDelta step delta)).2 (tl.add dump (.textDelta step delta)) := by
  have hwf := Timeline.wf_add dump h.wf (.textDelta step delta)
  by_cases hopen : tl.openRun = true
  · have hkind := h.lastKind.2 hopen
    have htext := h.textStep hopen
    obtain ⟨es, content, hes⟩ := h.wf.openLast hopen
    have hlen : tl.events.length = es.length + 1 := by rw [hes]; simp
    have hlast : Event.text ⟨es.length + 1, content⟩ ∈ tl.events := by rw [hes]; simp
    have hadd : tl.add dump (.textDelta step delta) =
        ⟨es ++ [.text ⟨es.length + 1, content ++ delta⟩], true⟩ := by
      simp only [Timeline.add, Packet.delta?, hopen, if_true, hes, Timeline.extendLast_concat]
    have hget : t.state.events.get? (es.length + 1) = some (.text ⟨es.length + 1, content⟩) :=
      h.get?_step hlast
    have haccept : (t.accept dump (.textDelta step delta)).2 =
        ⟨{ t.assigner with lastKind := some .text },
          { t.state with
            events := t.state.events.set (es.length + 1)
              (.text ⟨es.length + 1, content ++ delta⟩) }⟩ := by
      simp [TurnState.accept, StepAssigner.stepFor, hkind, htext, hlen, Packet.withStep,
        StreamState.fold, hget]
    have hmap : (tl.events.map fun f => if f.step = (es.length : Int) + 1 then
          Event.text ⟨es.length + 1, content ++ delta⟩ else f) =
        es ++ [.text ⟨es.length + 1, content ++ delta⟩] := by
      rw [hes, List.map_append, List.map_singleton, if_pos (by rfl)]
      congr 1
      refine (List.map_congr_left fun f hf => ?_).trans (List.map_id _)
      have hle := h.wf.init_step_le hes f hf
      exact if_neg (by omega)
    rw [hadd] at hwf ⊢
    rw [haccept]
    have hrows := h.set_step hlast (.text ⟨es.length + 1, content ++ delta⟩) rfl hmap
    refine ⟨hwf, hrows, ?_, ?_, by simp, fun _ => ?_⟩
    · rw [List.length_append, List.length_singleton, ← hlen]
      exact h.next
    · simp only [List.filterMap_append]
      rw [h.tools, hes, List.filterMap_append]
      rfl
    · rw [List.length_append, List.length_singleton, ← hlen]
      exact htext
  · have hkind : t.assigner.lastKind ≠ some .text := fun hk => hopen (h.lastKind.1 hk)
    have hadd : tl.add dump (.textDelta step delta) =
        ⟨tl.events ++ [.text ⟨tl.events.length + 1, delta⟩], true⟩ := by
      simp [Timeline.add, Packet.delta?, hopen]
    have haccept : (t.accept dump (.textDelta step delta)).2 =
        ⟨{ t.assigner with
            next := t.assigner.next + 1, textStep := some t.assigner.next,
            lastKind := some .text },
          { t.state with
            events := t.state.events.set t.assigner.next (.text ⟨t.assigner.next, delta⟩) }⟩ := by
      simp [TurnState.accept, StepAssigner.stepFor, hkind, Packet.withStep, StreamState.fold,
        h.get?_next]
    rw [hadd] at hwf ⊢
    rw [haccept, ← h.next] at *
    refine ⟨hwf, h.set_next rfl, ?_, ?_, by simp, fun _ => ?_⟩
    · simp [h.next]
    · simp [h.tools, Event.slot?, Event.tool?]
    · simp [h.next]

/-! ### Tools -/

theorem toolRecord_events (events : Dict Int (Event J)) (step : Int) (id name : String) :
    (StreamState.toolRecord events step id name).2 =
      events.set step (.tool (StreamState.toolRecord events step id name).1) := by
  unfold StreamState.toolRecord
  split
  · rename_i existing hget
    exact (Dict.set_of_get? hget).symm
  · rfl

/-- A tool packet overwrites its step with the refined record. -/
theorem fold_tool (dump : M → J) (st : StreamState J) {p : Packet M} {id name : String}
    (hid : p.toolCallId? = some id) (hname : p.toolName? = some name) (step : Int) :
    st.fold dump (p.withStep (some step)) =
      { st with
        events := st.events.set step
          (.tool (Timeline.refine dump p (StreamState.toolRecord st.events step id name).1)) } := by
  cases p with
  | toolStart =>
    cases hid
    cases hname
    simp only [Packet.withStep, StreamState.fold, toolRecord_events]
    rfl
  | toolCall =>
    cases hid
    cases hname
    simp only [Packet.withStep, StreamState.fold, toolRecord_events, Dict.set_set]
    rfl
  | toolEnd =>
    cases hid
    cases hname
    simp only [Packet.withStep, StreamState.fold, toolRecord_events, Dict.set_set]
    rfl
  | _ => cases hid

theorem stepFor_tool (a : StepAssigner) {p : Packet M} {id : String}
    (hid : p.toolCallId? = some id) : a.stepFor p = a.stepForTool id := by
  cases p <;> cases hid <;> rfl

/-- A packet of a known tool call. -/
theorem accept_known_tool_refines (dump : M → J) {t : TurnState J} {tl : Timeline J}
    (h : Refines t tl) {p : Packet M} {id name : String} {step : Int}
    (hdelta : p.delta? = none) (hid : p.toolCallId? = some id) (hname : p.toolName? = some name)
    (hstep : t.assigner.toolSteps.get? id = some step) :
    Refines (t.accept dump p).2 (tl.add dump p) := by
  have hwf := Timeline.wf_add dump h.wf p
  obtain ⟨e, he, rfl, rfl⟩ := h.toolSteps_some hstep
  have hany : (tl.events.any fun f => f.toolCallId? = some e.toolCallId) = true :=
    List.any_eq_true.2 ⟨.tool e, he, by simp [Event.toolCallId?, Event.tool?]⟩
  have hadd : tl.add dump p =
      ⟨tl.events.map (Timeline.refineAt dump p e.toolCallId), false⟩ := by
    simp only [Timeline.add, hdelta, hid, hname, hany, if_true]
  have hget : t.state.events.get? e.step = some (.tool e) := h.get?_step he
  have haccept : (t.accept dump p).2 =
      ⟨{ t.assigner with lastKind := some .tool },
        { t.state with
          events := t.state.events.set e.step (.tool (Timeline.refine dump p e)) }⟩ := by
    simp only [TurnState.accept, stepFor_tool t.assigner hid, StepAssigner.stepForTool, hstep,
      Option.isSome_some, if_true, fold_tool dump t.state hid hname, StreamState.toolRecord, hget]
  have hmap : (tl.events.map fun f => if f.step = e.step then
        Event.tool (Timeline.refine dump p e) else f) =
      tl.events.map (Timeline.refineAt dump p e.toolCallId) := by
    refine List.map_congr_left fun f hf => ?_
    by_cases hfe : f.step = e.step
    · have hsame : f = .tool e := h.eq_of_step hf he hfe
      rw [if_pos hfe, hsame]
      simp [Timeline.refineAt]
    · rw [if_neg hfe]
      cases f with
      | text f => rfl
      | tool f =>
        have hother : f.toolCallId ≠ e.toolCallId := fun hcall => by
          have hslot := h.toolSteps_of_mem hf
          rw [hcall, hstep] at hslot
          exact hfe (Option.some.inj hslot).symm
        simp [Timeline.refineAt, hother]
  rw [hadd] at hwf ⊢
  rw [haccept]
  have hrows := h.set_step he (.tool (Timeline.refine dump p e)) (by simp [Event.step]) hmap
  refine ⟨hwf, hrows, ?_, ?_, by simp, by simp⟩
  · simpa using h.next
  · rw [h.tools, List.filterMap_map]
    refine List.filterMap_congr fun f _ => ?_
    cases f with
    | text f => rfl
    | tool f =>
      simp only [Function.comp_apply, Timeline.refineAt]
      split <;> simp [Event.slot?, Event.tool?]

/-- The first packet of a tool call. -/
theorem accept_new_tool_refines (dump : M → J) {t : TurnState J} {tl : Timeline J}
    (h : Refines t tl) {p : Packet M} {id name : String}
    (hdelta : p.delta? = none) (hid : p.toolCallId? = some id) (hname : p.toolName? = some name)
    (hstep : t.assigner.toolSteps.get? id = none) :
    Refines (t.accept dump p).2 (tl.add dump p) := by
  have hwf := Timeline.wf_add dump h.wf p
  have hany : ¬ (tl.events.any fun f => f.toolCallId? = some id) = true := by
    intro hany
    obtain ⟨f, hf, hcall⟩ := List.any_eq_true.1 hany
    cases f with
    | text f => simp [Event.toolCallId?, Event.tool?] at hcall
    | tool f =>
      have hcall : f.toolCallId = id := by simpa [Event.toolCallId?, Event.tool?] using hcall
      have hslot := h.toolSteps_of_mem hf
      rw [hcall, hstep] at hslot
      cases hslot
  have hadd : tl.add dump p =
      ⟨tl.events ++ [.tool (Timeline.refine dump p (.new (tl.events.length + 1) id name))],
        false⟩ := by
    simp only [Timeline.add, hdelta, hid, hname, if_neg hany]
  have haccept : (t.accept dump p).2 =
      ⟨⟨t.assigner.next + 1, none, t.assigner.toolSteps.set id t.assigner.next, some .tool⟩,
        { t.state with
          events := t.state.events.set t.assigner.next
            (.tool (Timeline.refine dump p (.new t.assigner.next id name))) }⟩ := by
    simp only [TurnState.accept, stepFor_tool t.assigner hid, StepAssigner.stepForTool, hstep,
      Option.isSome_some, if_true, fold_tool dump t.state hid hname, StreamState.toolRecord,
      h.get?_next]
  rw [hadd] at hwf ⊢
  rw [haccept]
  rw [← h.next] at hwf ⊢
  refine ⟨hwf, h.set_next (by simp [Event.step, ToolEvent.new]), ?_, ?_, by simp, by simp⟩
  · simp [h.next]
  · simp only
    rw [Dict.set_rows_fresh _ hstep, h.tools, List.filterMap_append]
    simp [Event.slot?, Event.tool?, ToolEvent.new]

/-- **One packet**: the machine's step refines the timeline's. -/
theorem accept_refines (dump : M → J) {t : TurnState J} {tl : Timeline J} (h : Refines t tl)
    (p : Packet M) : Refines (t.accept dump p).2 (tl.add dump p) := by
  have htool : ∀ id name, p.delta? = none → p.toolCallId? = some id → p.toolName? = some name →
      Refines (t.accept dump p).2 (tl.add dump p) := by
    intro id name hdelta hid hname
    cases hstep : t.assigner.toolSteps.get? id with
    | some step => exact accept_known_tool_refines dump h hdelta hid hname hstep
    | none => exact accept_new_tool_refines dump h hdelta hid hname hstep
  cases p with
  | textDelta step delta => exact accept_text_refines dump h step delta
  | toolStart step id name => exact htool id name rfl rfl rfl
  | toolCall step id name arguments => exact htool id name rfl rfl rfl
  | toolEnd step id name status result err => exact htool id name rfl rfl rfl
  | start => exact h
  | error => exact ⟨h.wf, h.events, h.next, h.tools, h.lastKind, h.textStep⟩
  | finish => exact h

/-- **The whole stream**: the machine computes the timeline of its packets. -/
theorem acceptAll_refines (dump : M → J) {t : TurnState J} {tl : Timeline J} (h : Refines t tl)
    (ps : List (Packet M)) : Refines (t.acceptAll dump ps).2 (tl.addAll dump ps) := by
  induction ps generalizing t tl with
  | nil => exact h
  | cons p ps ih => exact ih (accept_refines dump h p)

theorem acceptAll_cons (dump : M → J) (t : TurnState J) (p : Packet M) (ps : List (Packet M)) :
    t.acceptAll dump (p :: ps) =
      ((t.accept dump p).1 :: ((t.accept dump p).2.acceptAll dump ps).1,
        ((t.accept dump p).2.acceptAll dump ps).2) := rfl

theorem acceptAll_append (dump : M → J) (t : TurnState J) (ps qs : List (Packet M)) :
    t.acceptAll dump (ps ++ qs) =
      ((t.acceptAll dump ps).1 ++ ((t.acceptAll dump ps).2.acceptAll dump qs).1,
        ((t.acceptAll dump ps).2.acceptAll dump qs).2) := by
  induction ps generalizing t with
  | nil => rfl
  | cons p ps ih => simp only [List.cons_append, acceptAll_cons, ih]

/-! ## What the loop emits and stores -/

/-- The loop emits its packets, stamped. -/
theorem acceptAll_packets (dump : M → J) (t : TurnState J) (ps : List (Packet M)) :
    (t.acceptAll dump ps).1.map (Packet.withStep none) = ps.map (Packet.withStep none) := by
  induction ps generalizing t with
  | nil => rfl
  | cons p ps ih =>
    simp only [TurnState.acceptAll, List.map_cons, ih]
    congr 1
    simp only [TurnState.accept]
    split <;> simp

theorem fold_sawError (dump : M → J) (st : StreamState J) (p : Packet M) :
    (st.fold dump p).sawError = (st.sawError || p.isError) := by
  unfold StreamState.fold
  split <;> simp [Packet.isError]
  split <;> rfl

theorem acceptAll_sawError (dump : M → J) (t : TurnState J) (ps : List (Packet M)) :
    (t.acceptAll dump ps).2.state.sawError = (t.state.sawError || ps.any Packet.isError) := by
  induction ps generalizing t with
  | nil => simp [TurnState.acceptAll]
  | cons p ps ih =>
    have hstep : (t.accept dump p).2.state.sawError = (t.state.sawError || p.isError) := by
      simp only [TurnState.accept, fold_sawError]
      split
      · cases p <;> rfl
      · rfl
    simp [TurnState.acceptAll, ih, hstep, Bool.or_assoc]

/-- Events under the steps `1..n`, sorted. -/
theorem sortedEvents_of_rows {st : StreamState J} {es : List (Event J)}
    (hrows : st.events.rows = es.map fun e => (e.step, e))
    (hsteps : es.map Event.step = (List.range' 1 es.length).map Nat.cast) :
    st.sortedEvents = es := by
  have hkeys : st.events.keys = es.map Event.step := by
    rw [Dict.keys, hrows, List.map_map]
    rfl
  have hsorted : (es.map Event.step).Pairwise (· ≤ ·) := by
    rw [hsteps]
    exact List.pairwise_le_range'.map Nat.cast fun _ _ h => Int.ofNat_le.2 h
  rw [StreamState.sortedEvents, hkeys, hsorted.insertionSort_eq, List.filterMap_map]
  refine (List.filterMap_congr fun e he => ?_).trans List.filterMap_some
  rw [Function.comp_apply, Dict.get?_eq_some, hrows]
  exact List.mem_map.2 ⟨e, he, rfl⟩

/-- The sorted events are the timeline. -/
theorem Refines.sortedEvents {t : TurnState J} {tl : Timeline J} (h : Refines t tl) :
    t.state.sortedEvents = tl.events :=
  sortedEvents_of_rows h.events h.wf.steps

theorem Refines.isEmpty {t : TurnState J} {tl : Timeline J} (h : Refines t tl) :
    t.state.events.rows.isEmpty = tl.events.isEmpty := by
  rw [h.events]
  cases tl.events <;> rfl

/-- The row that the turn would insert for these packets. -/
def turnRow (dump : M → J) (turn : ChatTurn) (id : UUID) (ps : List (Packet M)) :
    AssistantRow J :=
  assistantRow turn id (TurnState.new.acceptAll dump ps).2.state

theorem turnRow_content (dump : M → J) (turn : ChatTurn) (id : UUID) (ps : List (Packet M)) :
    (turnRow dump turn id ps).content = deltas ps := by
  have h := acceptAll_refines dump (refines_new : Refines (TurnState.new : TurnState J) _) ps
  have htexts := (Timeline.texts_addAll dump ps (Timeline.new : Timeline J)).1 rfl
  have hcontent : (turnRow dump turn id ps).content =
      (Timeline.texts ((Timeline.new : Timeline J).addAll dump ps).events).flatten := by
    simp only [turnRow, assistantRow, StreamState.assistantContent, h.sortedEvents,
      Timeline.texts, List.flatMap_def]
  rw [hcontent, htexts, ← textRuns_flatten]
  rfl

theorem turnRow_events (dump : M → J) (turn : ChatTurn) (id : UUID) {ps : List (Packet M)}
    (hclean : ((TurnState.new : TurnState J).acceptAll dump ps).2.state.shouldPersist = true) :
    (turnRow dump turn id ps).events =
      some ((Timeline.new : Timeline J).addAll dump ps).events := by
  have h := acceptAll_refines dump (refines_new : Refines (TurnState.new : TurnState J) _) ps
  rw [StreamState.shouldPersist, Bool.and_eq_true, Bool.not_eq_true'] at hclean
  simp only [turnRow, assistantRow, StreamState.eventsList, h.sortedEvents]
  rw [if_neg]
  simpa using hclean.2

theorem turn_shouldPersist (dump : M → J) (ps : List (Packet M)) :
    ((TurnState.new : TurnState J).acceptAll dump ps).2.state.shouldPersist = true ↔
      (∀ p ∈ ps, p.isError = false) ∧ ∃ p ∈ ps, p.isContent = true := by
  have h := acceptAll_refines dump (refines_new : Refines (TurnState.new : TurnState J) _) ps
  have hnil := Timeline.addAll_eq_nil dump (Timeline.wf_new : (Timeline.new : Timeline J).WF) ps
  rw [StreamState.shouldPersist, acceptAll_sawError, h.isEmpty, Bool.and_eq_true]
  refine and_congr ?_ ?_
  · simp [TurnState.new, StreamState.new]
  · rw [Bool.not_eq_true', List.isEmpty_eq_false_iff, ne_eq, hnil]
    simp [Timeline.new]

/-- **One turn, whatever the agent yields and however the insert ends.**  `start`, the agent's
packets in order, then `finish` exactly when the row is committed; the row is committed exactly
when there was content, no error and no conflict; it holds the timeline of the packets. -/
theorem streamTurn_spec (dump : M → J) (turn : ChatTurn) (id : UUID) (ps : List (Packet M))
    (record : AssistantRow J → Option σ) :
    (∃ sent, sent.map (Packet.withStep none) = ps.map (Packet.withStep none) ∧
      (streamTurn dump turn id ⟨ps, none⟩ record).emitted =
        .start id turn.sessionId :: sent ++
          (if (streamTurn dump turn id ⟨ps, none⟩ record).committed.isSome then
            [.finish "stop" id] else [])) ∧
    ((streamTurn dump turn id ⟨ps, none⟩ record).committed.isSome = true ↔
      (∀ p ∈ ps, p.isError = false) ∧ (∃ p ∈ ps, p.isContent = true) ∧
        (record (turnRow dump turn id ps)).isSome = true) ∧
    ∀ row s, (streamTurn dump turn id ⟨ps, none⟩ record).committed = some (row, s) →
      row.id = id ∧ row.content = deltas ps ∧
      ∃ events, row.events = some events ∧
        events.map Event.step = (List.range' 1 events.length).map Nat.cast ∧
        Timeline.texts events = textRuns ps ∧
        Timeline.summaries events = (toolCallIds ps).map (toolSummary dump ps) := by
  have hpersist := turn_shouldPersist dump ps
  have hpackets := acceptAll_packets dump (TurnState.new : TurnState J) ps
  by_cases hclean : ((TurnState.new : TurnState J).acceptAll dump ps).2.state.shouldPersist = true
  · have hok := hpersist.1 hclean
    have hbody : streamBody dump turn id ⟨ps, none⟩ =
        (.start id turn.sessionId :: ((TurnState.new : TurnState J).acceptAll dump ps).1,
          some (turnRow dump turn id ps), none) := by
      simp only [streamBody, hclean, if_true]
      rfl
    simp only [streamTurn, hbody]
    cases hrec : record (turnRow dump turn id ps) with
    | none => exact ⟨⟨_, hpackets, by simp⟩, by simp, nofun⟩
    | some s =>
      refine ⟨⟨_, hpackets, by simp⟩, iff_of_true rfl ⟨hok.1, hok.2, rfl⟩, ?_⟩
      intro row s' hcommitted
      cases hcommitted
      have h := acceptAll_refines dump (refines_new : Refines (TurnState.new : TurnState J) _) ps
      refine ⟨rfl, turnRow_content dump turn id ps, _, turnRow_events dump turn id hclean,
        h.wf.steps, ?_, Timeline.summaries_addAll dump ps⟩
      exact (Timeline.texts_addAll dump ps Timeline.new).1 rfl
  · have hbody : streamBody dump turn id ⟨ps, none⟩ =
        (.start id turn.sessionId :: ((TurnState.new : TurnState J).acceptAll dump ps).1,
          (none : Option (AssistantRow J)), none) := by
      simp only [streamBody, hclean, Bool.false_eq_true, if_false]
    simp only [streamTurn, hbody]
    refine ⟨⟨_, hpackets, by simp⟩, ?_, nofun⟩
    exact iff_of_false (by simp) fun h => hclean (hpersist.2 ⟨h.1, h.2.1⟩)

/-! ## When there is a row -/

/-- The agent returned, without an error packet and with some content. -/
def AgentRun.persistable (run : AgentRun M) : Bool :=
  run.raised.isNone && run.packets.all (fun p => !p.isError) && run.packets.any Packet.isContent

theorem streamBody_row {dump : M → J} {turn : ChatTurn} {id : UUID} {run : AgentRun M}
    {row : AssistantRow J} :
    (streamBody dump turn id run).2.1 = some row ↔
      run.persistable = true ∧ turnRow dump turn id run.packets = row := by
  obtain ⟨ps, raised⟩ := run
  have hpersist := turn_shouldPersist dump ps
  simp only [AgentRun.persistable, streamBody]
  cases raised with
  | some exc => simp
  | none =>
    by_cases hclean : ((TurnState.new : TurnState J).acceptAll dump ps).2.state.shouldPersist = true
    · have hok := hpersist.1 hclean
      simp only [hclean, if_true, Option.some.injEq]
      refine ⟨fun h => ⟨?_, h⟩, fun h => h.2⟩
      simpa using hok
    · simp only [hclean, Bool.false_eq_true, if_false]
      refine iff_of_false nofun fun h => hclean (hpersist.2 ?_)
      simpa using h.1

theorem streamBody_row_id {dump : M → J} {turn : ChatTurn} {id : UUID} {run : AgentRun M}
    {row : AssistantRow J} (h : (streamBody dump turn id run).2.1 = some row) :
    row.id = id ∧ row.parentMessageId = turn.clientMessageId ∧ row.sessionId = turn.sessionId := by
  obtain ⟨_, rfl⟩ := streamBody_row.1 h
  exact ⟨rfl, rfl, rfl⟩

/-- No `finish` before the commit. -/
theorem finish_not_mem_streamBody (dump : M → J) (turn : ChatTurn) (id : UUID) {run : AgentRun M}
    (hrun : ∀ p ∈ run.packets, p.isAgentPacket = true) :
    ∀ p ∈ (streamBody dump turn id run).1, p.finishId? = none := by
  have hsent : ∀ p ∈ (TurnState.new.acceptAll dump run.packets).1, p.finishId? = none := by
    intro p hp
    have hmem : p.withStep none ∈ run.packets.map (Packet.withStep none) := by
      rw [← acceptAll_packets dump TurnState.new]
      exact List.mem_map_of_mem hp
    obtain ⟨q, hq, heq⟩ := List.mem_map.1 hmem
    rw [← Packet.withStep_finishId? none, ← heq, Packet.withStep_finishId?]
    exact Packet.finishId?_of_isAgentPacket (hrun q hq)
  have hall : ∀ p ∈ Packet.start id turn.sessionId ::
      (TurnState.new.acceptAll dump run.packets).1, p.finishId? = none := by
    rw [List.forall_mem_cons]
    exact ⟨rfl, hsent⟩
  simp only [streamBody]
  split
  · exact hall
  · split <;> exact hall

end MeJournal
