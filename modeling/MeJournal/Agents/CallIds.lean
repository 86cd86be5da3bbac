import MeJournal.Agents.Grammar

/-!
# One record per executed call

`run_agent_stream`, `StepAssigner` and `StreamState` together.  The `tool_call_id` that the
provider streams is the key under which steps are handed out and records are merged.

* `acceptAll_call` — a call with a new id gets the next step, for all of its packets, and its own
  event.
* `ownSteps_iff` — a run has one event and one step per executed call, and steps that never
  decrease on the wire, exactly when the ids of the executed calls are pairwise distinct.
* `missing_ids_merge_calls` — two calls whose ids the provider leaves out.
-/

namespace MeJournal

variable {W M J : Type}

/-! ## Definitions -/

/-- The step of a content packet. -/
def Packet.step? : Packet M → Option Int
  | .textDelta step _ => step
  | .toolStart step _ _ => step
  | .toolCall step _ _ _ => step
  | .toolEnd step _ _ _ _ _ => step
  | _ => none

/-- The step of a tool packet. -/
def Packet.toolStep? (p : Packet M) : Option Int := if p.toolCallId?.isSome then p.step? else none

/-- The event of an executed call under a step. -/
def ExecutedCall.event (dump : M → J) (e : ExecutedCall M) (step : Int) : ToolEvent J where
  step := step
  toolCallId := e.call.id
  tool := e.call.name
  arguments := e.arguments.map dump
  status := some e.status
  result := e.result.map dump
  error := e.error

/-- The text deltas and executed calls of a run. -/
def runSegments (pf : Platform) (env : AgentEnv W M) (input : AgentInput) (s : RuntimeState W) :
    List (Segment M) :=
  match buildMessages pf input with
  | .error _ => []
  | .ok messages => loopSegments env maxToolTurns { s with messages := messages }

/-- The executed calls of a run, in order. -/
def runCalls (pf : Platform) (env : AgentEnv W M) (input : AgentInput) (s : RuntimeState W) :
    List (ExecutedCall M) :=
  (runSegments pf env input s).filterMap Segment.call?

/-- The calls have distinct steps: their events are the tool events of the turn, in order, and
their packets go out under them; no step on the wire is less than one before it. -/
structure OwnSteps (dump : M → J) (calls : List (ExecutedCall M)) (ps : List (Packet M))
    (steps : List Int) : Prop where
  one_each : steps.length = calls.length
  distinct : steps.Nodup
  events : (TurnState.new.acceptAll dump ps).2.state.sortedEvents.filterMap Event.tool? =
    calls.zipWith (fun call step => call.event dump step) steps
  stamps : (TurnState.new.acceptAll dump ps).1.filterMap Packet.toolStep? =
    (calls.zipWith (fun call step => List.replicate call.packets.length step) steps).flatten
  monotone : ((TurnState.new.acceptAll dump ps).1.filterMap Packet.step?).Pairwise (· ≤ ·)

/-! ## One packet -/

theorem tool_of_toolCallId? {p : Packet M} {id : String} (h : p.toolCallId? = some id) :
    p.delta? = none ∧ ∃ name, p.toolName? = some name := by
  cases p <;> cases h <;> exact ⟨rfl, _, rfl⟩

/-- The first packet of a tool call. -/
theorem accept_fresh (dump : M → J) {t : TurnState J} {tl : Timeline J} (h : Refines t tl)
    {p : Packet M} {id name : String} (hdelta : p.delta? = none) (hid : p.toolCallId? = some id)
    (hname : p.toolName? = some name)
    (hfresh : id ∉ (Timeline.summaries tl.events).map ToolSummary.toolCallId) :
    (t.accept dump p).1 = p.withStep (some (tl.events.length + 1)) ∧
      tl.add dump p = ⟨tl.events ++
        [.tool (Timeline.refine dump p (.new (tl.events.length + 1) id name))], false⟩ := by
  have hany := mt (Timeline.any_toolCallId? tl.events id).1 hfresh
  have hstep : t.assigner.toolSteps.get? id = none := by
    cases hget : t.assigner.toolSteps.get? id with
    | none => rfl
    | some step =>
      obtain ⟨e, he, rfl, _⟩ := h.toolSteps_some hget
      refine absurd (List.any_eq_true.2 ⟨.tool e, he, ?_⟩) hany
      simp [Event.toolCallId?, Event.tool?]
  constructor
  · simp only [TurnState.accept, stepFor_tool t.assigner hid, StepAssigner.stepForTool, hstep,
      Option.isSome_some, if_true, h.next]
  · simp only [Timeline.add, hdelta, hid, hname, if_neg hany]

/-- A further packet of the tool call that came last. -/
theorem accept_last (dump : M → J) {t : TurnState J} {tl : Timeline J} (h : Refines t tl)
    {p : Packet M} {name : String} {es : List (Event J)} {e : ToolEvent J}
    (hes : tl.events = es ++ [.tool e]) (hdelta : p.delta? = none)
    (hid : p.toolCallId? = some e.toolCallId) (hname : p.toolName? = some name) :
    (t.accept dump p).1 = p.withStep (some e.step) ∧
      tl.add dump p = ⟨es ++ [.tool (Timeline.refine dump p e)], false⟩ := by
  have he : .tool e ∈ tl.events := by simp [hes]
  have hstep := h.toolSteps_of_mem he
  have hany : (tl.events.any fun f => f.toolCallId? = some e.toolCallId) = true :=
    List.any_eq_true.2 ⟨.tool e, he, by simp [Event.toolCallId?, Event.tool?]⟩
  constructor
  · simp only [TurnState.accept, stepFor_tool t.assigner hid, StepAssigner.stepForTool, hstep,
      Option.isSome_some, if_true]
  · simp only [Timeline.add, hdelta, hid, hname, hany, if_true]
    rw [hes, List.map_append, List.map_singleton]
    simp only [Timeline.refineAt, if_true]
    congr 2
    refine (List.map_congr_left fun f hf => ?_).trans (List.map_id _)
    cases f with
    | text f => rfl
    | tool f =>
      have hf' : .tool f ∈ tl.events := by simp [hes, hf]
      have hother : f.toolCallId ≠ e.toolCallId := fun hcall => by
        have hslot := h.toolSteps_of_mem hf'
        rw [hcall, hstep, Option.some.injEq] at hslot
        have hle := h.wf.init_step_le hes _ hf
        have hlast := (h.wf.steps_of_concat hes).2
        simp only [Event.step] at hle hlast
        omega
      simp [Timeline.refineAt, hother]

theorem accept_text (dump : M → J) {t : TurnState J} {tl : Timeline J} (h : Refines t tl)
    (delta : Text) :
    (t.accept dump (.textDelta none delta)).1 =
        .textDelta (some ((tl.add dump (.textDelta none delta)).events.length : Int)) delta ∧
      tl.events.length ≤ (tl.add dump (.textDelta none delta)).events.length ∧
      (tl.add dump (.textDelta none delta)).events.filterMap Event.tool? =
        tl.events.filterMap Event.tool? := by
  by_cases hopen : tl.openRun = true
  · have hkind := h.lastKind.2 hopen
    have htext := h.textStep hopen
    obtain ⟨es, content, hes⟩ := h.wf.openLast hopen
    have hadd : (tl.add dump (.textDelta none delta)).events =
        es ++ [.text ⟨es.length + 1, content ++ delta⟩] := by
      simp only [Timeline.add, Packet.delta?, hopen, if_true, hes, Timeline.extendLast_concat]
    rw [hadd, hes]
    refine ⟨?_, by simp, by rw [List.filterMap_append, List.filterMap_append]; rfl⟩
    simp [TurnState.accept, StepAssigner.stepFor, hkind, htext, hes, Packet.withStep]
  · have hkind : t.assigner.lastKind ≠ some .text := fun hk => hopen (h.lastKind.1 hk)
    have hadd : (tl.add dump (.textDelta none delta)).events =
        tl.events ++ [.text ⟨tl.events.length + 1, delta⟩] := by
      simp [Timeline.add, Packet.delta?, hopen]
    rw [hadd]
    refine ⟨?_, by simp, by simp [Event.tool?]⟩
    simp [TurnState.accept, StepAssigner.stepFor, hkind, h.next, Packet.withStep]

/-! ## One call -/

/-- Further packets of the tool call that came last refine its event, under its step. -/
theorem acceptAll_last (dump : M → J) {t : TurnState J} {tl : Timeline J} (h : Refines t tl)
    {es : List (Event J)} {e : ToolEvent J} (htl : tl = ⟨es ++ [.tool e], false⟩)
    {ps : List (Packet M)}
    (hps : ∀ p ∈ ps, p.toolCallId? = some e.toolCallId) :
    (t.acceptAll dump ps).1 = ps.map (Packet.withStep (some e.step)) ∧
      tl.addAll dump ps =
        ⟨es ++ [.tool (ps.foldl (fun e p => Timeline.refine dump p e) e)], false⟩ := by
  induction ps generalizing t tl e with
  | nil => exact ⟨rfl, htl⟩
  | cons p ps ih =>
    rw [List.forall_mem_cons] at hps
    obtain ⟨hdelta, name, hname⟩ := tool_of_toolCallId? hps.1
    obtain ⟨hstamp, hadd⟩ := accept_last dump h (congrArg Timeline.events htl) hdelta hps.1 hname
    obtain ⟨hstamps, hrest⟩ := ih (accept_refines dump h p) hadd (by simpa using hps.2)
    constructor
    · rw [acceptAll_cons, hstamp, hstamps, Timeline.refine_step, List.map_cons]
    · rw [Timeline.addAll_cons, hrest]
      rfl

/-- **A call with a new id**: the next step for its packets, and an event of its own. -/
theorem acceptAll_call (dump : M → J) {t : TurnState J} {tl : Timeline J} (h : Refines t tl)
    {e : ExecutedCall M}
    (hfresh : e.call.id ∉ (Timeline.summaries tl.events).map ToolSummary.toolCallId) :
    (t.acceptAll dump e.packets).1 =
        e.packets.map (Packet.withStep (some (tl.events.length + 1))) ∧
      tl.addAll dump e.packets =
        ⟨tl.events ++ [.tool (e.event dump (tl.events.length + 1))], false⟩ := by
  have hstart : (Packet.toolStart none e.call.id e.call.name : Packet M).delta? = none := rfl
  obtain ⟨hstamp, hadd⟩ := accept_fresh dump h hstart rfl rfl hfresh
  set further := (e.arguments.map (Packet.toolCall none e.call.id e.call.name)).toList ++
    [.toolEnd none e.call.id e.call.name e.status e.result e.error] with hfurther
  have hids : ∀ p ∈ further, p.toolCallId? = some e.call.id := by
    intro p hp
    rw [hfurther, List.mem_append, List.mem_singleton, Option.mem_toList,
      Option.map_eq_some_iff] at hp
    rcases hp with ⟨m, _, rfl⟩ | rfl <;> rfl
  obtain ⟨hstamps, hrest⟩ := acceptAll_last dump (accept_refines dump h _) hadd hids
  have hevent : further.foldl (fun e p => Timeline.refine dump p e)
      (.new (tl.events.length + 1) e.call.id e.call.name) =
        e.event dump (tl.events.length + 1) := by
    rw [hfurther]
    cases harguments : e.arguments <;> simp [Timeline.refine, ExecutedCall.event, harguments,
      ToolEvent.new]
  constructor
  · rw [ExecutedCall.packets, acceptAll_cons, hstamp, hstamps]
    rfl
  · rw [ExecutedCall.packets, Timeline.addAll_cons, hrest]
    exact congrArg (fun e => Timeline.mk (tl.events ++ [Event.tool e]) false) hevent

/-! ## The whole run -/

theorem ExecutedCall.packets_toolCallId? (e : ExecutedCall M) :
    ∀ p ∈ e.packets, p.toolCallId? = some e.call.id := by
  intro p hp
  rw [ExecutedCall.packets, List.mem_cons, List.mem_append, List.mem_singleton, Option.mem_toList,
    Option.map_eq_some_iff] at hp
  rcases hp with rfl | ⟨m, _, rfl⟩ | rfl <;> rfl

/-- Tool packets under one step. -/
theorem stamped_steps {ps : List (Packet M)} {id : String}
    (h : ∀ p ∈ ps, p.toolCallId? = some id) (step : Int) :
    (ps.map (Packet.withStep (some step))).filterMap Packet.step? =
        List.replicate ps.length step ∧
      (ps.map (Packet.withStep (some step))).filterMap Packet.toolStep? =
        List.replicate ps.length step := by
  induction ps with
  | nil => exact ⟨rfl, rfl⟩
  | cons p ps ih =>
    rw [List.forall_mem_cons] at h
    obtain ⟨hsteps, htool⟩ := ih h.2
    have hone : (p.withStep (some step)).step? = some step ∧
        (p.withStep (some step)).toolStep? = some step := by
      cases p <;> cases h.1 <;> exact ⟨rfl, rfl⟩
    rw [List.map_cons, List.filterMap_cons_some hone.1, List.filterMap_cons_some hone.2, hsteps,
      htool]
    exact ⟨rfl, rfl⟩

/-- Calls with new, distinct ids, among text deltas: `steps` are their steps. -/
structure Recorded (dump : M → J) (t : TurnState J) (tl : Timeline J)
    (segments : List (Segment M)) (steps : List Int) : Prop where
  one_each : steps.length = (segments.filterMap Segment.call?).length
  events : (tl.addAll dump (segments.flatMap Segment.packets)).events.filterMap Event.tool? =
    tl.events.filterMap Event.tool? ++
      (segments.filterMap Segment.call?).zipWith (fun call step => call.event dump step) steps
  stamps : (t.acceptAll dump (segments.flatMap Segment.packets)).1.filterMap Packet.toolStep? =
    ((segments.filterMap Segment.call?).zipWith
      (fun call step => List.replicate call.packets.length step) steps).flatten
  monotone : ((t.acceptAll dump (segments.flatMap Segment.packets)).1.filterMap
    Packet.step?).Pairwise (· ≤ ·)
  later : ∀ step ∈ (t.acceptAll dump (segments.flatMap Segment.packets)).1.filterMap Packet.step?,
    (tl.events.length : Int) ≤ step

theorem Recorded.text {dump : M → J} {t : TurnState J} {tl : Timeline J} (h : Refines t tl)
    {delta : Text} {segments : List (Segment M)} {steps : List Int}
    (hrest : Recorded dump (t.accept dump (.textDelta none delta)).2
      (tl.add dump (.textDelta none delta)) segments steps) :
    Recorded dump t tl (.text delta :: segments) steps := by
  obtain ⟨hstamp, hle, htools⟩ := accept_text dump h delta
  have hpackets : (Segment.text delta :: segments).flatMap Segment.packets =
      .textDelta none delta :: segments.flatMap Segment.packets := rfl
  refine ⟨hrest.one_each, ?_, ?_, ?_, ?_⟩
  · rw [hpackets, Timeline.addAll_cons, hrest.events, htools]
    rfl
  · rw [hpackets, acceptAll_cons, hstamp, List.filterMap_cons_none (by rfl), hrest.stamps]
    rfl
  · rw [hpackets, acceptAll_cons, hstamp, List.filterMap_cons_some (by rfl), List.pairwise_cons]
    exact ⟨hrest.later, hrest.monotone⟩
  · rw [hpackets, acceptAll_cons, hstamp, List.filterMap_cons_some (by rfl), List.forall_mem_cons]
    refine ⟨Int.ofNat_le.2 hle, fun step hstep => ?_⟩
    have hlater := hrest.later step hstep
    omega

theorem Recorded.tool {dump : M → J} {t : TurnState J} {tl : Timeline J} (h : Refines t tl)
    {e : ExecutedCall M}
    (hfresh : e.call.id ∉ (Timeline.summaries tl.events).map ToolSummary.toolCallId)
    {segments : List (Segment M)} {steps : List Int}
    (hrest : Recorded dump (t.acceptAll dump e.packets).2 (tl.addAll dump e.packets) segments
      steps) :
    Recorded dump t tl (.tool e :: segments) ((tl.events.length + 1) :: steps) := by
  obtain ⟨hstamp, hadd⟩ := acceptAll_call dump h hfresh
  obtain ⟨hsteps, htool⟩ := stamped_steps e.packets_toolCallId? (tl.events.length + 1)
  have hpackets : (Segment.tool e :: segments).flatMap Segment.packets =
      e.packets ++ segments.flatMap Segment.packets := rfl
  have hlater : ∀ step ∈ ((t.acceptAll dump e.packets).2.acceptAll dump
      (segments.flatMap Segment.packets)).1.filterMap Packet.step?,
      (tl.events.length + 1 : Int) ≤ step := by
    intro step hstep
    have hle := hrest.later step hstep
    rw [hadd, List.length_append, List.length_singleton] at hle
    exact hle
  refine ⟨congrArg (· + 1) hrest.one_each, ?_, ?_, ?_, ?_⟩
  · rw [hpackets, Timeline.addAll, List.foldl_append]
    refine hrest.events.trans ?_
    rw [hadd, List.filterMap_append, List.append_assoc]
    rfl
  · rw [hpackets, acceptAll_append, List.filterMap_append, hstamp, htool, hrest.stamps]
    rfl
  · rw [hpackets, acceptAll_append, List.filterMap_append, hstamp, hsteps, List.pairwise_append]
    refine ⟨List.pairwise_replicate.2 (Or.inr le_rfl), hrest.monotone, fun a ha b hb => ?_⟩
    rw [List.eq_of_mem_replicate ha]
    exact hlater b hb
  · rw [hpackets, acceptAll_append, List.filterMap_append, hstamp, hsteps]
    intro step hstep
    rcases List.mem_append.1 hstep with hstep | hstep
    · rw [List.eq_of_mem_replicate hstep]
      omega
    · have hle := hlater step hstep
      omega

/-- **Run lemma**: distinct new ids give every call its own step and event. -/
theorem recorded_of_nodup (dump : M → J) {t : TurnState J} {tl : Timeline J} (h : Refines t tl)
    {segments : List (Segment M)}
    (hnodup : ((segments.filterMap Segment.call?).map fun e => e.call.id).Nodup)
    (hfresh : ∀ e ∈ segments.filterMap Segment.call?,
      e.call.id ∉ (Timeline.summaries tl.events).map ToolSummary.toolCallId) :
    ∃ steps, Recorded dump t tl segments steps := by
  induction segments generalizing t tl with
  | nil => exact ⟨[], rfl, (List.append_nil _).symm, rfl, List.Pairwise.nil, nofun⟩
  | cons segment segments ih =>
    cases segment with
    | text delta =>
      obtain ⟨_, _, htools⟩ := accept_text dump h delta
      have hsame : Timeline.summaries (tl.add dump (.textDelta none delta)).events =
          Timeline.summaries tl.events := congrArg (List.map ToolEvent.summary) htools
      obtain ⟨steps, hrest⟩ := ih (accept_refines dump h (.textDelta none delta)) hnodup
        (by rw [hsame]; exact hfresh)
      exact ⟨steps, .text h hrest⟩
    | tool e =>
      have hcalls : (Segment.tool e :: segments).filterMap Segment.call? =
          e :: segments.filterMap Segment.call? := rfl
      rw [hcalls, List.map_cons, List.nodup_cons] at hnodup
      rw [hcalls, List.forall_mem_cons] at hfresh
      obtain ⟨_, hadd⟩ := acceptAll_call dump h hfresh.1
      obtain ⟨steps, hrest⟩ := ih (acceptAll_refines dump h e.packets) hnodup.2 <| by
        intro f hf
        rw [hadd, Timeline.summaries_append, List.map_append, List.mem_append]
        rintro (hold | hnew)
        · exact hfresh.2 f hf hold
        · have hid : f.call.id = e.call.id := List.mem_singleton.1 hnew
          exact hnodup.1 (hid ▸ List.mem_map_of_mem hf)
      exact ⟨_, .tool h hfresh.1 hrest⟩

theorem runAgentStream_segments (pf : Platform) (env : AgentEnv W M) (input : AgentInput)
    (s : RuntimeState W) :
    ∃ last, (runAgentStream pf env input s).emitted =
        (runSegments pf env input s).flatMap Segment.packets ++ last ∧
      ∀ p ∈ last, p.isError = true := by
  rw [runAgentStream_eq, runSegments]
  cases buildMessages pf input with
  | error e => exact ⟨[], rfl, nofun⟩
  | ok messages =>
    refine ⟨_, guarded_emitted env _, fun p hp => ?_⟩
    exact closingError_isError (Option.mem_toList.1 hp)

/-- Error packets are passed on and leave the timeline alone. -/
theorem acceptAll_errors (dump : M → J) (t : TurnState J) (tl : Timeline J) {ps : List (Packet M)}
    (h : ∀ p ∈ ps, p.isError = true) :
    (t.acceptAll dump ps).1 = ps ∧ tl.addAll dump ps = tl := by
  induction ps generalizing t tl with
  | nil => exact ⟨rfl, rfl⟩
  | cons p ps ih =>
    rw [List.forall_mem_cons] at h
    have hone : (t.accept dump p).1 = p ∧ tl.add dump p = tl := by
      cases p <;> cases h.1
      exact ⟨rfl, rfl⟩
    rw [acceptAll_cons, Timeline.addAll_cons, hone.1, hone.2, (ih _ tl h.2).1, (ih t tl h.2).2]
    exact ⟨rfl, rfl⟩

theorem steps_of_errors {ps : List (Packet M)} (h : ∀ p ∈ ps, p.isError = true) :
    ps.filterMap Packet.step? = [] ∧ ps.filterMap Packet.toolStep? = [] := by
  rw [List.filterMap_eq_nil_iff, List.filterMap_eq_nil_iff]
  constructor <;> intro p hp <;> have herror := h p hp <;> cases p <;> cases herror <;> rfl

/-- The tool events of a stream have distinct ids. -/
theorem toolEvents_nodup (dump : M → J) (ps : List (Packet M)) :
    (((TurnState.new.acceptAll dump ps).2.state.sortedEvents.filterMap Event.tool?).map
      ToolEvent.toolCallId).Nodup := by
  have hrefines := acceptAll_refines dump (refines_new : Refines (TurnState.new : TurnState J) _) ps
  have hsummaries := congrArg (List.map ToolSummary.toolCallId)
    (Timeline.summaries_addAll (J := J) dump ps)
  rw [Timeline.summaries, List.map_map, List.map_map] at hsummaries
  rw [hrefines.sortedEvents]
  refine (hsummaries.trans ?_) ▸ toolCallIds_nodup ps
  exact List.map_id _

theorem zipWith_event_ids (dump : M → J) (calls : List (ExecutedCall M)) {steps : List Int}
    (h : steps.length = calls.length) :
    (calls.zipWith (fun call step => call.event dump step) steps).map ToolEvent.toolCallId =
        calls.map (fun e => e.call.id) ∧
      (calls.zipWith (fun call step => call.event dump step) steps).map ToolEvent.step = steps := by
  induction calls generalizing steps with
  | nil => exact ⟨rfl, (List.length_eq_zero_iff.1 h).symm⟩
  | cons call calls ih =>
    obtain ⟨step, steps, rfl⟩ := List.exists_cons_of_length_eq_add_one h
    obtain ⟨hids, hsteps⟩ := ih (Nat.succ.inj h)
    simp only [List.zipWith_cons_cons, List.map_cons, hids, hsteps]
    exact ⟨rfl, rfl⟩

theorem toolSteps_sublist (es : List (Event J)) :
    ((es.filterMap Event.tool?).map ToolEvent.step).Sublist (es.map Event.step) := by
  induction es with
  | nil => exact List.Sublist.slnil
  | cons e es ih =>
    cases e with
    | text e => exact ih.cons _
    | tool e => exact ih.cons_cons _

/-- A run whose calls have distinct ids. -/
theorem ownSteps_of_nodup (dump : M → J) {segments : List (Segment M)} {last : List (Packet M)}
    (hlast : ∀ p ∈ last, p.isError = true)
    (hnodup : ((segments.filterMap Segment.call?).map fun e => e.call.id).Nodup) :
    ∃ steps, OwnSteps dump (segments.filterMap Segment.call?)
      (segments.flatMap Segment.packets ++ last) steps := by
  have hnew : Refines (TurnState.new : TurnState J) Timeline.new := refines_new
  obtain ⟨steps, h⟩ := recorded_of_nodup dump hnew hnodup fun _ _ => List.not_mem_nil
  have hwire : (TurnState.new.acceptAll dump (segments.flatMap Segment.packets ++ last)).1 =
      ((TurnState.new : TurnState J).acceptAll dump (segments.flatMap Segment.packets)).1 ++
        last := by
    rw [acceptAll_append, (acceptAll_errors dump _ Timeline.new hlast).1]
  have hrefines := acceptAll_refines dump hnew (segments.flatMap Segment.packets ++ last)
  have hevents : (TurnState.new.acceptAll dump
        (segments.flatMap Segment.packets ++ last)).2.state.sortedEvents.filterMap Event.tool? =
      (segments.filterMap Segment.call?).zipWith (fun call step => call.event dump step) steps := by
    rw [hrefines.sortedEvents, Timeline.addAll, List.foldl_append]
    refine Eq.trans ?_ h.events
    exact congrArg (fun tl => tl.events.filterMap Event.tool?)
      (acceptAll_errors dump TurnState.new _ hlast).2
  obtain ⟨hnosteps, hnostamps⟩ := steps_of_errors hlast
  refine ⟨steps, h.one_each, ?_, hevents, ?_, ?_⟩
  · rw [← (zipWith_event_ids dump _ h.one_each).2, ← hevents, hrefines.sortedEvents]
    refine (toolSteps_sublist _).nodup ?_
    rw [hrefines.wf.steps]
    exact List.Nodup.map (fun _ _ => Int.ofNat.inj) List.nodup_range'
  · rw [hwire, List.filterMap_append, hnostamps, List.append_nil]
    exact h.stamps
  · rw [hwire, List.filterMap_append, hnosteps, List.append_nil]
    exact h.monotone

/-- **Every executed call gets a step and a record of its own, and steps never decrease, exactly
when the provider's ids for the executed calls are pairwise distinct.** -/
theorem ownSteps_iff (dump : M → J) (pf : Platform) (env : AgentEnv W M) (input : AgentInput)
    (s : RuntimeState W) :
    (∃ steps, OwnSteps dump (runCalls pf env input s) (runAgentStream pf env input s).emitted
        steps) ↔
      ((runCalls pf env input s).map fun e => e.call.id).Nodup := by
  constructor
  · rintro ⟨steps, h⟩
    rw [← (zipWith_event_ids dump _ h.one_each).1, ← h.events]
    exact toolEvents_nodup dump _
  · intro hnodup
    obtain ⟨last, hemitted, hlast⟩ := runAgentStream_segments pf env input s
    rw [hemitted]
    exact ownSteps_of_nodup dump hlast hnodup

/-! ## Ids left out -/

/-- One turn with two calls without ids, then one that ends. -/
def twoCallsScript : List ModelStream :=
  [⟨[toolCallsChunk [⟨0, none, some ⟨some "search_memories", none⟩⟩,
      ⟨1, none, some ⟨some "manage_memory", none⟩⟩]], none⟩]

/-- **The records of the two calls are merged**: two calls are executed, and there is one event. -/
theorem missing_ids_merge_calls :
    (runCalls utcPlatform scriptedEnv (sampleAgentInput "UTC".toList) ⟨[], twoCallsScript⟩).map
        (fun e => e.call.name) = ["search_memories", "manage_memory"] ∧
      ¬ ∃ steps, OwnSteps (id : Unit → Unit)
        (runCalls utcPlatform scriptedEnv (sampleAgentInput "UTC".toList) ⟨[], twoCallsScript⟩)
        (runAgentStream utcPlatform scriptedEnv (sampleAgentInput "UTC".toList)
          ⟨[], twoCallsScript⟩).emitted steps := by
  refine ⟨by decide, ?_⟩
  rintro ⟨steps, h⟩
  have hlength := congrArg List.length h.events
  rw [List.length_zipWith, h.one_each, min_self] at hlength
  revert hlength
  decide

end MeJournal
