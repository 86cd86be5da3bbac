import MeJournal.Mobile.LiveTimeline

/-!
# Replaying a persisted turn

The packets of `replay_stream` for a row that `stream_turn` persisted, folded again by
`StreamState` and by the mobile reducer.  Replay validates what a tool event holds with the
classes of the tool that the event names.

* `replayEvents_foldAll` — events that validate are replayed to packets that fold back to them.
* `replayEvents_loads` — a replay that returns has validated every tool event.
* `replaysBack_iff` — the row comes back exactly when the arguments and the result in each of its
  tool events are those of the tool that opened it.
* `reused_call_id_breaks_replay` — a `tool_call_id` that two tools use.
-/

namespace MeJournal

variable {M J : Type}

/-! ## Classes of models -/

/-- The pydantic class of a model in a packet. -/
inductive ModelClass where
  | args (tool : String)
  | result (tool : String)
  deriving DecidableEq

/-- A dump validates with its own class, to the model it was made of, and not with the class of
another tool, whose required fields it lacks. -/
structure ToolCodec.Validates (codec : ToolCodec M J) (cls : M → ModelClass) : Prop where
  args_own : ∀ m tool, cls m = .args tool → codec.loadArgs tool (codec.dump m) = .ok m
  args_other : ∀ m tool, cls m = .args tool → ∀ other ∈ toolClassByName, other ≠ tool →
    ∃ e, codec.loadArgs other (codec.dump m) = .error e
  result_own : ∀ m tool, cls m = .result tool → codec.loadResult tool (codec.dump m) = .ok m
  result_other : ∀ m tool, cls m = .result tool → ∀ other ∈ toolClassByName, other ≠ tool →
    ∃ e, codec.loadResult other (codec.dump m) = .error e

/-- Members of the `Packet` union: the models are of the packet's tool. -/
def Packet.Typed (cls : M → ModelClass) : Packet M → Prop
  | .toolStart _ _ name => name ∈ toolClassByName
  | .toolCall _ _ name arguments => name ∈ toolClassByName ∧ cls arguments = .args name
  | .toolEnd _ _ name _ result _ =>
    name ∈ toolClassByName ∧ ∀ m, result = some m → cls m = .result name
  | _ => True

/-! ## What comes back -/

/-- Replaying the message yields `start` and `finish` with its id, and between them packets that
both folds turn into its events and content. -/
def ReplaysBack (codec : ToolCodec M J) (cached : Message J) : Prop :=
  ∃ packets, (replayStream codec cached ()).result = .ok () ∧
    (replayStream codec cached ()).emitted =
      .start cached.id cached.sessionId :: packets ++ [.finish "stop" cached.id] ∧
    (StreamState.foldAll codec.dump packets).eventsList = cached.events ∧
    (StreamState.foldAll codec.dump packets).assistantContent = cached.content ∧
    ∀ clientMessageId userText startedAt, ∃ turn,
      foldPackets codec.dump ⟨some (startedTurn clientMessageId userText startedAt)⟩ packets =
        ⟨some turn⟩ ∧
      serverEventsFromTurn turn = cached.events.getD [] ∧
      contentOf (serverEventsFromTurn turn) = cached.content

/-- Tool and arguments of a call packet. -/
def Packet.call? : Packet M → Option (String × M)
  | .toolCall _ _ name arguments => some (name, arguments)
  | _ => none

/-- Tool and outcome of an end packet. -/
def Packet.end? : Packet M → Option (String × ToolStatus × Option M × Option Text)
  | .toolEnd _ _ name status result err => some (name, status, result, err)
  | _ => none

/-- The last call packet of a `tool_call_id`. -/
def lastCall (ps : List (Packet M)) (id : String) : Option (String × M) :=
  ((toolPackets ps id).filterMap Packet.call?).getLast?

/-- The last end packet of a `tool_call_id`. -/
def lastEnd (ps : List (Packet M)) (id : String) :
    Option (String × ToolStatus × Option M × Option Text) :=
  ((toolPackets ps id).filterMap Packet.end?).getLast?

/-- The last call packet of `id`, and its last end packet if it has a result, are of the tool of
its first packet. -/
def OneTool (ps : List (Packet M)) (id : String) : Prop :=
  ∀ tool ∈ ((toolPackets ps id).filterMap Packet.toolName?).head?,
    (∀ call ∈ lastCall ps id, call.1 = tool) ∧
    ∀ last ∈ lastEnd ps id, last.2.2.1.isSome = true → last.1 = tool

instance (ps : List (Packet M)) (id : String) : Decidable (OneTool ps id) :=
  inferInstanceAs (Decidable (∀ _ ∈ _, _))

/-! ## A tool event that validates -/

/-- The arguments and the result validate, to models with the same dump. -/
structure ToolCodec.Reloads (codec : ToolCodec M J) (e : ToolEvent J) : Prop where
  known : e.tool ∈ toolClassByName
  arguments : ∀ a, e.arguments = some a → ∃ m, codec.loadArgs e.tool a = .ok m ∧ codec.dump m = a
  result : ∀ r, e.result = some r → ∃ m, codec.loadResult e.tool r = .ok m ∧ codec.dump m = r
  ended : e.status = none → e.result = none ∧ e.error = none

/-- What is replayed of a tool event, given its models. -/
def replayedTool (e : ToolEvent J) (arguments result : Option M) : List (Packet M) :=
  .toolStart (some e.step) e.toolCallId e.tool ::
    ((arguments.map (Packet.toolCall (some e.step) e.toolCallId e.tool)).toList ++
      (e.status.map fun status =>
        Packet.toolEnd (some e.step) e.toolCallId e.tool status result e.error).toList)

theorem replayedTool_streamed {e : ToolEvent J} (h : e.tool ∈ toolClassByName)
    (arguments result : Option M) : ∀ p ∈ replayedTool e arguments result, p.isStreamed = true := by
  intro p hp
  simp only [replayedTool, List.mem_cons, List.mem_append, Option.mem_toList,
    Option.map_eq_some_iff] at hp
  rcases hp with rfl | ⟨m, _, rfl⟩ | ⟨status, _, rfl⟩ <;> simpa [Packet.isStreamed] using h

theorem replayCall_eq {codec : ToolCodec M J} {e : ToolEvent J} (h : codec.Reloads e) :
    ∃ m : Option M, e.arguments = m.map codec.dump ∧ replayCall codec e () =
      ⟨(m.map (Packet.toolCall (some e.step) e.toolCallId e.tool)).toList, .ok (), ()⟩ := by
  cases harguments : e.arguments with
  | none =>
    refine ⟨none, rfl, ?_⟩
    simp only [replayCall, harguments]
    rfl
  | some a =>
    obtain ⟨m, hload, rfl⟩ := h.arguments a harguments
    refine ⟨some m, rfl, ?_⟩
    simp only [replayCall, harguments, hload]
    rfl

theorem replayEnd_eq {codec : ToolCodec M J} {e : ToolEvent J} (h : codec.Reloads e) :
    ∃ m : Option M, e.result = m.map codec.dump ∧ replayEnd codec e () =
      ⟨(e.status.map fun status =>
        Packet.toolEnd (some e.step) e.toolCallId e.tool status m e.error).toList, .ok (), ()⟩ := by
  cases hstatus : e.status with
  | none =>
    refine ⟨none, (h.ended hstatus).1, ?_⟩
    simp only [replayEnd, hstatus]
    rfl
  | some status =>
    cases hresult : e.result with
    | none =>
      refine ⟨none, rfl, ?_⟩
      simp only [replayEnd, hstatus, hresult]
      rfl
    | some r =>
      obtain ⟨m, hload, rfl⟩ := h.result r hresult
      refine ⟨some m, rfl, ?_⟩
      simp only [replayEnd, hstatus, hresult, hload]
      rfl

/-- A validated event is replayed in full. -/
theorem replayTool_eq {codec : ToolCodec M J} {e : ToolEvent J} (h : codec.Reloads e) :
    ∃ arguments result : Option M, e.arguments = arguments.map codec.dump ∧
      e.result = result.map codec.dump ∧
      replayTool codec e () = ⟨replayedTool e arguments result, .ok (), ()⟩ := by
  obtain ⟨m, harguments, hcall⟩ := replayCall_eq h
  obtain ⟨r, hresult, hend⟩ := replayEnd_eq h
  refine ⟨m, r, harguments, hresult, ?_⟩
  have hrest : (replayCall codec e >>= fun _ => replayEnd codec e) () =
      ⟨(replayCall codec e ()).emitted ++ (replayEnd codec e ()).emitted, .ok (), ()⟩ := by
    rw [Gen.bind_of_ok (by rw [hcall]), hcall, hend]
  rw [replayTool, if_pos h.known, Gen.bind_of_ok rfl, Gen.emit_run, hrest, hcall, hend]
  rfl

/-- A packet of a tool whose record is there. -/
theorem fold_tool_of_get? (dump : M → J) {st : StreamState J} {p : Packet M} {id name : String}
    (hid : p.toolCallId? = some id) (hname : p.toolName? = some name) {step : Int}
    {e : ToolEvent J} (h : st.events.get? step = some (.tool e)) :
    st.fold dump (p.withStep (some step)) =
      { st with events := st.events.set step (.tool (Timeline.refine dump p e)) } := by
  rw [fold_tool dump st hid hname, StreamState.toolRecord, h]

/-- **The replayed packets of a tool event fold back to it.** -/
theorem foldl_replayedTool (dump : M → J) {e : ToolEvent J} {arguments result : Option M}
    (harguments : e.arguments = arguments.map dump) (hresult : e.result = result.map dump)
    (hended : e.status = none → e.result = none ∧ e.error = none) {st : StreamState J}
    (hfresh : st.events.get? e.step = none) :
    (replayedTool e arguments result).foldl (StreamState.fold dump) st =
      { st with events := st.events.set e.step (.tool e) } := by
  obtain ⟨step, id, tool, _, status, _, error⟩ := e
  simp only at harguments hresult hended hfresh
  subst harguments hresult
  have hopen : st.fold dump (.toolStart (some step) id tool : Packet M) =
      { st with events := st.events.set step (.tool (.new step id tool)) } := by
    simp only [StreamState.fold, StreamState.toolRecord, hfresh]
  have hcall : ((arguments.map (Packet.toolCall (some step) id tool)).toList).foldl
        (StreamState.fold dump) (st.fold dump (.toolStart (some step) id tool : Packet M)) =
      { st with
        events := st.events.set step
          (.tool { ToolEvent.new step id tool with arguments := arguments.map dump }) } := by
    rw [hopen]
    cases arguments with
    | none => rfl
    | some m =>
      have hget := Dict.get?_set st.events step (.tool (.new step id tool))
      exact (fold_tool_of_get? dump (p := .toolCall none id tool m) rfl rfl hget).trans
        (by rw [Dict.set_set]; rfl)
  simp only [replayedTool, List.foldl_cons, List.foldl_append, hcall]
  cases status with
  | none =>
    obtain ⟨hresult, rfl⟩ := hended rfl
    rw [hresult]
    rfl
  | some status =>
    have hget := Dict.get?_set st.events step
      (.tool { ToolEvent.new step id tool with arguments := arguments.map dump })
    exact (fold_tool_of_get? dump (p := .toolEnd none id tool status result error) rfl rfl
      hget).trans (by rw [Dict.set_set]; rfl)

/-! ## The events of a row -/

/-- **Events that validate fold back.** -/
theorem replayEvents_foldAll {codec : ToolCodec M J} {es : List (Event J)}
    (h : ∀ e, .tool e ∈ es → codec.Reloads e) :
    ∃ packets, replayEvents codec es () = ⟨packets, .ok (), ()⟩ ∧
      (∀ p ∈ packets, p.isStreamed = true) ∧
      ∀ st : StreamState J, (∀ e ∈ es, st.events.get? e.step = none) →
        (es.map Event.step).Nodup →
        (packets.foldl (StreamState.fold codec.dump) st).events.rows =
          st.events.rows ++ es.map fun e => (e.step, e) := by
  induction es with
  | nil => exact ⟨[], rfl, nofun, fun st _ _ => (List.append_nil _).symm⟩
  | cons e es ih =>
    obtain ⟨rest, hrest, hstreamed, hfold⟩ := ih fun e he => h e (List.mem_cons_of_mem _ he)
    -- What the packets of `e` do to a state without its step.
    have hone : ∃ packets, replayEvents codec (e :: es) () = ⟨packets ++ rest, .ok (), ()⟩ ∧
        (∀ p ∈ packets, p.isStreamed = true) ∧
        ∀ st : StreamState J, st.events.get? e.step = none →
          packets.foldl (StreamState.fold codec.dump) st =
            { st with events := st.events.set e.step e } := by
      cases e with
      | text e =>
        refine ⟨[.textDelta (some e.step) e.content], ?_, by simp [Packet.isStreamed], ?_⟩
        · rw [replayEvents, Gen.bind_of_ok rfl, Gen.emit_run, hrest]
        · intro st hfresh
          simp only [Event.step] at hfresh
          simp only [List.foldl_cons, List.foldl_nil, StreamState.fold, hfresh]
          rfl
      | tool e =>
        have he := h e List.mem_cons_self
        obtain ⟨arguments, result, harguments, hresult, htool⟩ := replayTool_eq he
        refine ⟨replayedTool e arguments result, ?_, replayedTool_streamed he.known _ _, ?_⟩
        · rw [replayEvents, Gen.bind_of_ok (by rw [htool]), htool, hrest]
        · intro st hfresh
          exact foldl_replayedTool codec.dump harguments hresult he.ended hfresh
    obtain ⟨packets, hrun, hpackets, hset⟩ := hone
    refine ⟨packets ++ rest, hrun, ?_, fun st hfresh hnodup => ?_⟩
    · intro p hp
      exact (List.mem_append.1 hp).elim (hpackets p) (hstreamed p)
    · rw [List.forall_mem_cons] at hfresh
      rw [List.map_cons, List.nodup_cons] at hnodup
      have hrows := Dict.set_rows_fresh e hfresh.1
      rw [List.foldl_append, hset st hfresh.1, hfold, hrows, List.append_assoc]
      · rfl
      · intro f hf
        have hne : e.step ≠ f.step := fun hstep =>
          hnodup.1 (hstep ▸ List.mem_map_of_mem hf)
        rw [Dict.get?_eq_none, hrows, List.forall_mem_append]
        exact ⟨Dict.get?_eq_none.1 (hfresh.2 f hf), by simpa using hne⟩
      · exact hnodup.2

/-- **A replay that returns has validated every tool event.** -/
theorem replayEvents_loads {codec : ToolCodec M J} {es : List (Event J)}
    (h : (replayEvents codec es ()).result = .ok ()) {e : ToolEvent J} (he : .tool e ∈ es) :
    (∀ a, e.arguments = some a → ∃ m, codec.loadArgs e.tool a = .ok m) ∧
      ∀ r, e.status.isSome = true → e.result = some r → ∃ m, codec.loadResult e.tool r = .ok m := by
  induction es with
  | nil => cases he
  | cons f es ih =>
    rcases List.mem_cons.1 he with rfl | he
    · obtain ⟨_, htool, _⟩ := Gen.ok_of_bind h
      rw [replayTool] at htool
      split at htool
      · obtain ⟨_, _, htool⟩ := Gen.ok_of_bind htool
        obtain ⟨_, hcall, hend⟩ := Gen.ok_of_bind htool
        refine ⟨fun a ha => ?_, fun r hstatus hr => ?_⟩
        · simp only [replayCall, ha] at hcall
          obtain ⟨m, hload, _⟩ := Gen.ok_of_bind hcall
          exact ⟨m, hload⟩
        · obtain ⟨status, hstatus⟩ := Option.isSome_iff_exists.1 hstatus
          simp only [replayEnd, hstatus, hr] at hend
          obtain ⟨m, hload, _⟩ := Gen.ok_of_bind hend
          exact ⟨m, hload⟩
      · cases htool
    · refine ih ?_ he
      cases f with
      | text f => exact (Gen.ok_of_bind h).choose_spec.2
      | tool f => exact (Gen.ok_of_bind h).choose_spec.2

/-! ## The tool events of a persisted row -/

/-- A tool event of the row, in terms of the packets of its `tool_call_id`. -/
structure RecordOf (dump : M → J) (ps : List (Packet M)) (id : String) (e : ToolEvent J) :
    Prop where
  opened : ((toolPackets ps id).filterMap Packet.toolName?).head? = some e.tool
  arguments : e.arguments = (lastCall ps id).map fun call => dump call.2
  status : e.status = (lastEnd ps id).map fun last => last.2.1
  result : e.result = ((lastEnd ps id).bind fun last => last.2.2.1).map dump
  error : e.error = (lastEnd ps id).bind fun last => last.2.2.2

/-- The last of the values that `f` reads, when `f` reads part of what `g` reads. -/
theorem getLast?_filterMap_map {α β γ : Type} {f : α → Option γ} {g : α → Option β} {h : β → γ}
    (hfg : ∀ a, f a = (g a).map h) (l : List α) :
    (l.filterMap f).getLast? = ((l.filterMap g).getLast?).map h := by
  rw [← List.getLast?_map, List.map_filterMap]
  simp only [hfg]

theorem recordOf_of_summary {dump : M → J} {ps : List (Packet M)} {id : String} {e : ToolEvent J}
    (h : e.summary = toolSummary dump ps id) : RecordOf dump ps id e := by
  have hcall : ((toolPackets ps id).filterMap Packet.arguments?).getLast? =
      (lastCall ps id).map Prod.snd :=
    getLast?_filterMap_map (fun p => by cases p <;> rfl) _
  have hend : ((toolPackets ps id).filterMap Packet.outcome?).getLast? =
      (lastEnd ps id).map Prod.snd :=
    getLast?_filterMap_map (fun p => by cases p <;> rfl) _
  simp only [ToolEvent.summary, toolSummary, hcall, hend, ToolSummary.mk.injEq] at h
  obtain ⟨_, hopened, harguments, hstatus, hresult, herror⟩ := h
  refine ⟨hopened.symm, ?_, ?_, ?_, ?_⟩
  · rw [harguments, Option.map_map]
    rfl
  · rw [hstatus, Option.map_map]
    rfl
  · rw [hresult, Option.bind_map]
    rfl
  · rw [herror, Option.bind_map]
    rfl

/-- The packets behind a record are of the `Packet` union. -/
theorem RecordOf.known {dump : M → J} {cls : M → ModelClass} {ps : List (Packet M)} {id : String}
    {e : ToolEvent J} (h : RecordOf dump ps id e) (htyped : ∀ p ∈ ps, p.Typed cls) :
    e.tool ∈ toolClassByName := by
  obtain ⟨p, hp, hname⟩ := List.mem_filterMap.1 (List.mem_of_head? h.opened)
  have hptyped := htyped p (List.mem_of_mem_filter hp)
  cases p with
  | toolStart => cases hname; exact hptyped
  | toolCall => cases hname; exact hptyped.1
  | toolEnd => cases hname; exact hptyped.1
  | _ => cases hname

theorem lastCall_typed {cls : M → ModelClass} {ps : List (Packet M)} {id name : String}
    {arguments : M} (htyped : ∀ p ∈ ps, p.Typed cls)
    (h : lastCall ps id = some (name, arguments)) : cls arguments = .args name := by
  obtain ⟨p, hp, hcall⟩ := List.mem_filterMap.1 (List.mem_of_getLast? h)
  have hptyped := htyped p (List.mem_of_mem_filter hp)
  cases p with
  | toolCall => cases hcall; exact hptyped.2
  | _ => cases hcall

theorem lastEnd_typed {cls : M → ModelClass} {ps : List (Packet M)} {id name : String}
    {status : ToolStatus} {result : M} {err : Option Text} (htyped : ∀ p ∈ ps, p.Typed cls)
    (h : lastEnd ps id = some (name, status, some result, err)) : cls result = .result name := by
  obtain ⟨p, hp, hlast⟩ := List.mem_filterMap.1 (List.mem_of_getLast? h)
  have hptyped := htyped p (List.mem_of_mem_filter hp)
  cases p with
  | toolEnd => cases hlast; exact hptyped.2 _ rfl
  | _ => cases hlast

/-- **Exactly the records of one tool validate.** -/
theorem RecordOf.reloads {codec : ToolCodec M J} {cls : M → ModelClass} {ps : List (Packet M)}
    {id : String} {e : ToolEvent J} (h : RecordOf codec.dump ps id e)
    (hcodec : codec.Validates cls) (htyped : ∀ p ∈ ps, p.Typed cls) (hone : OneTool ps id) :
    codec.Reloads e where
  known := h.known htyped
  arguments := by
    intro a ha
    rw [h.arguments, Option.map_eq_some_iff] at ha
    obtain ⟨⟨name, m⟩, hcall, rfl⟩ := ha
    obtain rfl : name = e.tool := (hone _ h.opened).1 _ hcall
    exact ⟨m, hcodec.args_own m _ (lastCall_typed htyped hcall), rfl⟩
  result := by
    intro r hr
    rw [h.result, Option.map_eq_some_iff] at hr
    obtain ⟨m, hm, rfl⟩ := hr
    obtain ⟨⟨name, status, _, err⟩, hlast, rfl⟩ := Option.bind_eq_some_iff.1 hm
    obtain rfl : name = e.tool := (hone _ h.opened).2 _ hlast rfl
    exact ⟨m, hcodec.result_own m _ (lastEnd_typed htyped hlast), rfl⟩
  ended := by
    intro hstatus
    rw [h.status, Option.map_eq_none_iff] at hstatus
    rw [h.result, h.error, hstatus]
    exact ⟨rfl, rfl⟩

theorem RecordOf.oneTool {codec : ToolCodec M J} {cls : M → ModelClass} {ps : List (Packet M)}
    {id : String} {e : ToolEvent J} (h : RecordOf codec.dump ps id e)
    (hcodec : codec.Validates cls) (htyped : ∀ p ∈ ps, p.Typed cls)
    (harguments : ∀ a, e.arguments = some a → ∃ m, codec.loadArgs e.tool a = .ok m)
    (hresult : ∀ r, e.status.isSome = true → e.result = some r →
      ∃ m, codec.loadResult e.tool r = .ok m) : OneTool ps id := by
  intro tool hopened
  obtain rfl : e.tool = tool := Option.some.inj (h.opened.symm.trans hopened)
  have hknown := h.known htyped
  constructor
  · rintro ⟨name, m⟩ hcall
    by_contra hne
    obtain ⟨m', hload⟩ := harguments (codec.dump m) (by rw [h.arguments, hcall]; rfl)
    obtain ⟨exc, hfail⟩ := hcodec.args_other m name (lastCall_typed htyped hcall) e.tool hknown
      (Ne.symm hne)
    rw [hload] at hfail
    cases hfail
  · rintro ⟨name, status, result, err⟩ hlast hsome
    obtain ⟨m, rfl⟩ := Option.isSome_iff_exists.1 hsome
    by_contra hne
    obtain ⟨m', hload⟩ := hresult (codec.dump m) (by rw [h.status, hlast]; rfl)
      (by rw [h.result, hlast]; rfl)
    obtain ⟨exc, hfail⟩ := hcodec.result_other m name (lastEnd_typed htyped hlast) e.tool hknown
      (Ne.symm hne)
    rw [hload] at hfail
    cases hfail

/-- The row that a turn persists: its events are a timeline of at least one event. -/
structure PersistedRow (dump : M → J) (ps : List (Packet M)) (row : AssistantRow J)
    (es : List (Event J)) : Prop where
  events : row.events = some es
  nonempty : es ≠ []
  content : row.content = contentOf es
  steps : es.map Event.step = (List.range' 1 es.length).map Nat.cast
  summaries : Timeline.summaries es = (toolCallIds ps).map (toolSummary dump ps)

theorem persistedRow {σ : Type} {dump : M → J} {turn : ChatTurn} {id : UUID} {run : AgentRun M}
    {record : AssistantRow J → Option σ} {row : AssistantRow J} {s : σ}
    (h : (streamTurn dump turn id run record).committed = some (row, s)) :
    ∃ es, PersistedRow dump run.packets row es := by
  obtain ⟨hpersist, rfl, _⟩ := streamTurn_committed.1 h
  obtain ⟨ps, raised⟩ := run
  simp only [AgentRun.persistable, Bool.and_eq_true, List.all_eq_true, List.any_eq_true,
    Bool.not_eq_true'] at hpersist
  obtain ⟨⟨_, hclean⟩, p, hp, hcontent⟩ := hpersist
  have hrefines := acceptAll_refines dump (refines_new : Refines (TurnState.new : TurnState J) _) ps
  have hsaved := (turn_shouldPersist (J := J) dump ps).2 ⟨hclean, p, hp, hcontent⟩
  refine ⟨((Timeline.new : Timeline J).addAll dump ps).events, turnRow_events dump turn id hsaved,
    ?_, ?_, hrefines.wf.steps, Timeline.summaries_addAll dump ps⟩
  · intro hnil
    have hnone := ((Timeline.addAll_eq_nil dump Timeline.wf_new ps).1 hnil).2 p hp
    rw [hcontent] at hnone
    cases hnone
  · simp only [turnRow, assistantRow, StreamState.assistantContent, hrefines.sortedEvents]
    rfl

theorem PersistedRow.recordOf {dump : M → J} {ps : List (Packet M)} {row : AssistantRow J}
    {es : List (Event J)} (h : PersistedRow dump ps row es) {e : ToolEvent J}
    (he : .tool e ∈ es) : ∃ id ∈ toolCallIds ps, RecordOf dump ps id e := by
  have hmem : e.summary ∈ Timeline.summaries es :=
    List.mem_map_of_mem (List.mem_filterMap.2 ⟨.tool e, he, rfl⟩)
  rw [h.summaries] at hmem
  obtain ⟨id, hid, hsummary⟩ := List.mem_map.1 hmem
  exact ⟨id, hid, recordOf_of_summary hsummary.symm⟩

/-- Every `tool_call_id` has its event. -/
theorem PersistedRow.exists_recordOf {dump : M → J} {ps : List (Packet M)} {row : AssistantRow J}
    {es : List (Event J)} (h : PersistedRow dump ps row es) {id : String}
    (hid : id ∈ toolCallIds ps) : ∃ e, .tool e ∈ es ∧ RecordOf dump ps id e := by
  have hmem : toolSummary dump ps id ∈ Timeline.summaries es := by
    rw [h.summaries]
    exact List.mem_map_of_mem hid
  obtain ⟨e, he, hsummary⟩ := List.mem_map.1 hmem
  obtain ⟨f, hf, htool⟩ := List.mem_filterMap.1 he
  cases f with
  | text f => cases htool
  | tool f =>
    cases htool
    exact ⟨e, hf, recordOf_of_summary hsummary⟩

/-! ## The round trip -/

theorem replayStream_run {codec : ToolCodec M J} {cached : Message J} {packets : List (Packet M)}
    (h : replayEvents codec (cached.events.getD []) () = ⟨packets, .ok (), ()⟩) :
    replayStream codec cached () =
      ⟨.start cached.id cached.sessionId :: packets ++ [.finish "stop" cached.id], .ok (), ()⟩ := by
  rw [replayStream, Gen.bind_of_ok rfl, Gen.emit_run, Gen.bind_of_ok (by rw [h]), h]
  rfl

theorem replayStream_ok {codec : ToolCodec M J} {cached : Message J}
    (h : (replayStream codec cached ()).result = .ok ()) :
    (replayEvents codec (cached.events.getD []) ()).result = .ok () := by
  obtain ⟨_, _, hrest⟩ := Gen.ok_of_bind h
  obtain ⟨_, hevents, _⟩ := Gen.ok_of_bind hrest
  exact hevents

/-- Packets that fold back to the events of a persisted row, in both folds. -/
theorem PersistedRow.replaysBack {codec : ToolCodec M J} {ps : List (Packet M)}
    {row : AssistantRow J} {es : List (Event J)} (h : PersistedRow codec.dump ps row es)
    (env : ChatEnv) (hreloads : ∀ e, .tool e ∈ es → codec.Reloads e) :
    ReplaysBack codec (assistantMessage env row) := by
  obtain ⟨packets, hrun, hstreamed, hfold⟩ := replayEvents_foldAll hreloads
  have hnodup : (es.map Event.step).Nodup := by
    rw [h.steps]
    exact List.Nodup.map (fun _ _ => Int.ofNat.inj) List.nodup_range'
  have hrows : (StreamState.foldAll codec.dump packets).events.rows =
      es.map fun e => (e.step, e) :=
    hfold .new (fun _ _ => rfl) hnodup
  have hsorted := sortedEvents_of_rows hrows h.steps
  have hcontent : (StreamState.foldAll codec.dump packets).assistantContent = row.content := by
    rw [StreamState.assistantContent, hsorted, h.content]
    rfl
  have hevents : (assistantMessage env row).events.getD [] = es := by
    rw [assistantMessage, h.events]
    rfl
  have hstream := replayStream_run (hevents.symm ▸ hrun)
  refine ⟨packets, by rw [hstream], by rw [hstream], ?_, hcontent, ?_⟩
  · have hsome : (StreamState.foldAll codec.dump packets).events.rows.isEmpty = false := by
      rw [hrows, List.isEmpty_eq_false_iff, ne_eq, List.map_eq_nil_iff]
      exact h.nonempty
    rw [StreamState.eventsList, hsome, hsorted, if_neg Bool.false_ne_true]
    exact h.events.symm
  · intro clientMessageId userText startedAt
    have hstart : (startedTurn clientMessageId userText startedAt : ActiveTurn J).events =
        (StreamState.new : StreamState J).events := rfl
    obtain ⟨turn, hturn, hsame, hkeyed⟩ := foldPackets_foldAll codec.dump hstart stepKeyed_new
      hstreamed
    have hlive : serverEventsFromTurn turn = es := by
      rw [serverEventsFromTurn_eq hkeyed, hsame]
      exact hsorted
    refine ⟨turn, hturn, hlive.trans hevents.symm, ?_⟩
    rw [hlive]
    exact h.content.symm

/-- **Replay after persist after fold is the identity exactly when no record mixes two tools.** -/
theorem replaysBack_iff {σ : Type} {codec : ToolCodec M J} {cls : M → ModelClass}
    (hcodec : codec.Validates cls) {turn : ChatTurn} {id : UUID} {run : AgentRun M}
    (htyped : ∀ p ∈ run.packets, p.Typed cls) {record : AssistantRow J → Option σ}
    {row : AssistantRow J} {s : σ}
    (hrow : (streamTurn codec.dump turn id run record).committed = some (row, s)) (env : ChatEnv) :
    ReplaysBack codec (assistantMessage env row) ↔
      ∀ callId ∈ toolCallIds run.packets, OneTool run.packets callId := by
  obtain ⟨es, h⟩ := persistedRow hrow
  constructor
  · rintro ⟨packets, hok, _⟩ callId hcallId
    obtain ⟨e, he, hrecord⟩ := h.exists_recordOf hcallId
    have hloads := replayStream_ok hok
    rw [assistantMessage, h.events] at hloads
    obtain ⟨harguments, hresult⟩ := replayEvents_loads hloads he
    exact hrecord.oneTool hcodec htyped harguments hresult
  · intro hone
    refine h.replaysBack env fun e he => ?_
    obtain ⟨callId, hcallId, hrecord⟩ := h.recordOf he
    exact hrecord.reloads hcodec htyped (hone callId hcallId)

/-! ## One id, two tools -/

def validationError : PyExc where
  cls := "ValidationError"
  bases := ["ValueError", "Exception"]
  message := []

/-- Models without fields: a dump validates with the class it was made with. -/
def classCodec : ToolCodec ModelClass ModelClass where
  dump := id
  loadArgs := fun tool j => if j = .args tool then .ok j else .error validationError
  loadResult := fun tool j => if j = .result tool then .ok j else .error validationError

theorem classCodec_validates : classCodec.Validates id where
  args_own := by rintro m tool rfl; simp [classCodec]
  args_other := by
    rintro m tool rfl other _ hne
    exact ⟨validationError, if_neg fun h => hne (ModelClass.args.inj h).symm⟩
  result_own := by rintro m tool rfl; simp [classCodec]
  result_other := by
    rintro m tool rfl other _ hne
    exact ⟨validationError, if_neg fun h => hne (ModelClass.result.inj h).symm⟩

/-- A tool call that succeeds. -/
def okCall (id tool : String) : List (Packet ModelClass) :=
  [.toolStart none id tool, .toolCall none id tool (.args tool),
    .toolEnd none id tool .ok (some (.result tool)) none]

def sampleTurn : ChatTurn := ⟨1, 2, 3⟩

/-- A text run, a call with invalid arguments, and two calls of one tool under one id. -/
def mergedPackets : List (Packet ModelClass) :=
  [.textDelta none ['a'], .toolStart none "call_1" "manage_memory",
    .toolEnd none "call_1" "manage_memory" .error none (some ['e'])] ++
    okCall "call_2" "search_memories" ++ okCall "call_2" "search_memories"

/-- Two calls of two tools under one id. -/
def reusedIdPackets : List (Packet ModelClass) :=
  okCall "call_0" "search_memories" ++ okCall "call_0" "manage_memory"

theorem committed_of_persistable {ps : List (Packet ModelClass)}
    (h : (AgentRun.mk ps none).persistable = true) :
    (streamTurn classCodec.dump sampleTurn 9 ⟨ps, none⟩ fun _ => some ()).committed =
      some (turnRow classCodec.dump sampleTurn 9 ps, ()) :=
  streamTurn_committed.2 ⟨h, rfl, rfl⟩

theorem replaysBack_iff_merged :
    ReplaysBack classCodec
      (assistantMessage (sampleEnv 9) (turnRow classCodec.dump sampleTurn 9 mergedPackets)) := by
  have htyped : ∀ p ∈ mergedPackets, p.Typed id := by
    simp [mergedPackets, okCall, Packet.Typed, toolClassByName]
  exact (replaysBack_iff classCodec_validates htyped (committed_of_persistable (by decide))
    (sampleEnv 9)).2 (by decide)

/-- **The replay raises**: the record is one of `search_memories` with the arguments of
`manage_memory`. -/
theorem reused_call_id_breaks_replay :
    classCodec.Validates id ∧ (∀ p ∈ reusedIdPackets, p.Typed id) ∧
      (streamTurn classCodec.dump sampleTurn 9 ⟨reusedIdPackets, none⟩ fun _ => some ()).committed =
        some (turnRow classCodec.dump sampleTurn 9 reusedIdPackets, ()) ∧
      (replayStream classCodec (assistantMessage (sampleEnv 9)
        (turnRow classCodec.dump sampleTurn 9 reusedIdPackets)) ()).result =
          .error validationError ∧
      ¬ ReplaysBack classCodec (assistantMessage (sampleEnv 9)
        (turnRow classCodec.dump sampleTurn 9 reusedIdPackets)) := by
  have hraises : (replayStream classCodec (assistantMessage (sampleEnv 9)
      (turnRow classCodec.dump sampleTurn 9 reusedIdPackets)) ()).result =
        .error validationError := by
    decide
  refine ⟨classCodec_validates, ?_, committed_of_persistable (by decide), hraises, ?_⟩
  · simp [reusedIdPackets, okCall, Packet.Typed, toolClassByName]
  · rintro ⟨packets, hok, _⟩
    rw [hraises] at hok
    cases hok

end MeJournal
