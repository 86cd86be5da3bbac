import MeJournal.Chat.StreamState

/-!
# What a turn's timeline is

The timeline of a packet sequence, without step counters or dictionaries: a text delta
extends the open text run or opens one at the end, a tool packet refines the record of its
`tool_call_id` or appends one, and closes the open run.

* `wf_add`, `texts_addAll`, `summaries_addAll` — the timeline of a packet sequence has steps
  `1..n`, one text event per text run, one tool event per distinct `tool_call_id`, with the last
  arguments and the last status, result and error.
* `accept_refines`, `acceptAll_refines` — the step assigner and the stream state, run
  together, compute exactly this timeline.
-/

namespace MeJournal

variable {M J : Type}

/-! ## The specification -/

/-- All deltas, in arrival order. -/
def deltas (ps : List (Packet M)) : Text := (ps.filterMap Packet.delta?).flatten

/-- The text runs that follow, given the run that is open. -/
def textRunsFrom : Option Text → List (Packet M) → List Text
  | run, [] => run.toList
  | run, p :: ps =>
    match p.delta?, p.toolCallId? with
    | some delta, _ => textRunsFrom (some (run.getD [] ++ delta)) ps
    | none, some _ => run.toList ++ textRunsFrom none ps
    | none, none => textRunsFrom run ps

/-- The text of each maximal run of deltas with no tool packet in between. -/
def textRuns (ps : List (Packet M)) : List Text := textRunsFrom none ps

/-- The `tool_call_id`s, in order of first appearance. -/
def toolCallIds (ps : List (Packet M)) : List String :=
  (ps.filterMap Packet.toolCallId?).eraseDups

/-- The packets of one tool call. -/
def toolPackets (ps : List (Packet M)) (id : String) : List (Packet M) :=
  ps.filter fun p => p.toolCallId? = some id

def Packet.arguments? : Packet M → Option M
  | .toolCall _ _ _ arguments => some arguments
  | _ => none

/-- Status, result and error of an end packet. -/
def Packet.outcome? : Packet M → Option (ToolStatus × Option M × Option Text)
  | .toolEnd _ _ _ status result err => some (status, result, err)
  | _ => none

/-- A tool event without its step: the first name, the last arguments, the last outcome. -/
structure ToolSummary (J : Type) where
  toolCallId : String
  tool : Option String
  arguments : Option J
  status : Option ToolStatus
  result : Option J
  error : Option Text
  deriving DecidableEq

def ToolEvent.summary (e : ToolEvent J) : ToolSummary J :=
  ⟨e.toolCallId, some e.tool, e.arguments, e.status, e.result, e.error⟩

/-- What the packets of a tool call amount to. -/
def toolSummary (dump : M → J) (ps : List (Packet M)) (id : String) : ToolSummary J :=
  let own := toolPackets ps id
  let outcome := (own.filterMap Packet.outcome?).getLast?
  { toolCallId := id
    tool := (own.filterMap Packet.toolName?).head?
    arguments := ((own.filterMap Packet.arguments?).getLast?).map dump
    status := outcome.map fun o => o.1
    result := (outcome.bind fun o => o.2.1).map dump
    error := outcome.bind fun o => o.2.2 }

/-! ## The timeline machine -/

/-- The events so far, and whether the last content packet was text. -/
structure Timeline (J : Type) where
  events : List (Event J)
  openRun : Bool

namespace Timeline

def new : Timeline J := ⟨[], false⟩

/-- Append to the content of the last event. -/
def extendLast (delta : Text) : List (Event J) → List (Event J)
  | [] => []
  | [.text e] => [.text { e with content := e.content ++ delta }]
  | e :: es => e :: extendLast delta es

/-- What a packet changes in its tool record. -/
def refine (dump : M → J) : Packet M → ToolEvent J → ToolEvent J
  | .toolCall _ _ _ arguments, e => { e with arguments := some (dump arguments) }
  | .toolEnd _ _ _ status result error, e =>
    { e with status := some status, result := result.map dump, error := error }
  | _, e => e

/-- Refine the record of `id`. -/
def refineAt (dump : M → J) (p : Packet M) (id : String) : Event J → Event J
  | .tool e => if e.toolCallId = id then .tool (refine dump p e) else .tool e
  | .text e => .text e

/-- One packet. -/
def add (dump : M → J) (t : Timeline J) (p : Packet M) : Timeline J :=
  match p.delta?, p.toolCallId?, p.toolName? with
  | some delta, _, _ =>
    if t.openRun then ⟨extendLast delta t.events, true⟩
    else ⟨t.events ++ [.text ⟨t.events.length + 1, delta⟩], true⟩
  | none, some id, some name =>
    if t.events.any fun e => e.toolCallId? = some id then
      ⟨t.events.map (refineAt dump p id), false⟩
    else ⟨t.events ++ [.tool (refine dump p (.new (t.events.length + 1) id name))], false⟩
  | none, _, _ => t

/-- A packet sequence. -/
def addAll (dump : M → J) (t : Timeline J) (ps : List (Packet M)) : Timeline J :=
  ps.foldl (add dump) t

@[simp] theorem addAll_nil (dump : M → J) (t : Timeline J) : t.addAll dump [] = t := rfl

@[simp] theorem addAll_cons (dump : M → J) (t : Timeline J) (p : Packet M)
    (ps : List (Packet M)) : t.addAll dump (p :: ps) = (t.add dump p).addAll dump ps := rfl

theorem addAll_snoc (dump : M → J) (t : Timeline J) (p : Packet M) (ps : List (Packet M)) :
    t.addAll dump (ps ++ [p]) = (t.addAll dump ps).add dump p := List.foldl_concat ..

/-- **The three things a packet can do to a timeline.** -/
theorem add_cases (dump : M → J) (t : Timeline J) (p : Packet M) :
    (∃ delta, p.delta? = some delta ∧ p.toolCallId? = none ∧
      t.add dump p = if t.openRun then ⟨extendLast delta t.events, true⟩
        else ⟨t.events ++ [.text ⟨t.events.length + 1, delta⟩], true⟩) ∨
    (∃ id name, p.delta? = none ∧ p.toolCallId? = some id ∧ p.toolName? = some name ∧
      t.add dump p = if t.events.any fun e => e.toolCallId? = some id then
          ⟨t.events.map (refineAt dump p id), false⟩
        else ⟨t.events ++ [.tool (refine dump p (.new (t.events.length + 1) id name))], false⟩) ∨
    (p.delta? = none ∧ p.toolCallId? = none ∧ t.add dump p = t) := by
  cases p with
  | textDelta step delta => exact Or.inl ⟨delta, rfl, rfl, rfl⟩
  | toolStart step id name => exact Or.inr (Or.inl ⟨id, name, rfl, rfl, rfl, rfl⟩)
  | toolCall step id name arguments => exact Or.inr (Or.inl ⟨id, name, rfl, rfl, rfl, rfl⟩)
  | toolEnd step id name status result err => exact Or.inr (Or.inl ⟨id, name, rfl, rfl, rfl, rfl⟩)
  | start => exact Or.inr (Or.inr ⟨rfl, rfl, rfl⟩)
  | error => exact Or.inr (Or.inr ⟨rfl, rfl, rfl⟩)
  | finish => exact Or.inr (Or.inr ⟨rfl, rfl, rfl⟩)

/-! ## Pieces -/

theorem extendLast_concat (delta : Text) (es : List (Event J)) (e : TextEvent) :
    extendLast delta (es ++ [.text e]) =
      es ++ [.text { e with content := e.content ++ delta }] := by
  induction es with
  | nil => rfl
  | cons a es ih =>
    cases es with
    | nil => cases a <;> rfl
    | cons b es => simp only [List.cons_append] at ih ⊢; rw [extendLast, ih]; simp

@[simp] theorem refine_step (dump : M → J) (p : Packet M) (e : ToolEvent J) :
    (refine dump p e).step = e.step := by
  unfold refine; split <;> rfl

@[simp] theorem refine_toolCallId (dump : M → J) (p : Packet M) (e : ToolEvent J) :
    (refine dump p e).toolCallId = e.toolCallId := by
  unfold refine; split <;> rfl

@[simp] theorem refineAt_step (dump : M → J) (p : Packet M) (id : String) (e : Event J) :
    (refineAt dump p id e).step = e.step := by
  cases e with
  | text e => rfl
  | tool e => simp only [refineAt]; split <;> simp [Event.step]

@[simp] theorem refineAt_text? (dump : M → J) (p : Packet M) (id : String) (e : Event J) :
    (refineAt dump p id e).text? = e.text? := by
  cases e with
  | text e => rfl
  | tool e => simp only [refineAt]; split <;> rfl

/-! ## Steps and open runs -/

/-- Steps are the positions; an open run is the last event. -/
structure WF (t : Timeline J) : Prop where
  steps : t.events.map Event.step = (List.range' 1 t.events.length).map Nat.cast
  openLast : t.openRun = true → ∃ es content, t.events = es ++ [.text ⟨es.length + 1, content⟩]

theorem wf_new : (new : Timeline J).WF := ⟨rfl, nofun⟩

theorem steps_concat {es : List (Event J)} {e : Event J}
    (h : es.map Event.step = (List.range' 1 es.length).map Nat.cast)
    (he : e.step = es.length + 1) :
    (es ++ [e]).map Event.step = (List.range' 1 (es ++ [e]).length).map Nat.cast := by
  rw [List.map_append, h, List.length_append, List.length_singleton, List.range'_concat,
    List.map_singleton, he, List.map_append]
  simp [Int.add_comm]

theorem WF.steps_of_concat {t : Timeline J} (h : t.WF) {es : List (Event J)} {e : Event J}
    (hes : t.events = es ++ [e]) :
    es.map Event.step = (List.range' 1 es.length).map Nat.cast ∧ e.step = es.length + 1 := by
  have hsteps := h.steps
  rw [hes, List.map_append, List.length_append, List.length_singleton, List.range'_concat,
    List.map_append] at hsteps
  obtain ⟨hinit, hlast⟩ := List.append_inj' hsteps rfl
  refine ⟨hinit, (List.singleton_inj.1 hlast).trans ?_⟩
  simp [Int.add_comm]

/-- The events before the last one have earlier steps. -/
theorem WF.init_step_le {t : Timeline J} (h : t.WF) {es : List (Event J)} {e : Event J}
    (hes : t.events = es ++ [e]) : ∀ f ∈ es, f.step ≤ es.length := by
  intro f hf
  have hmem : f.step ∈ es.map Event.step := List.mem_map_of_mem hf
  rw [(h.steps_of_concat hes).1, List.mem_map] at hmem
  obtain ⟨i, hi, hstep⟩ := hmem
  rw [List.mem_range'_1] at hi
  omega

/-- **Adding a packet keeps the timeline well formed.** -/
theorem wf_add (dump : M → J) {t : Timeline J} (h : t.WF) (p : Packet M) : (t.add dump p).WF := by
  rcases add_cases dump t p with ⟨delta, _, _, heq⟩ | ⟨id, name, _, _, _, heq⟩ | ⟨_, _, heq⟩
  · rw [heq]
    split
    · rename_i hopen
      obtain ⟨es, content, hes⟩ := h.openLast hopen
      have hsteps := h.steps
      rw [hes] at hsteps ⊢
      rw [extendLast_concat]
      refine ⟨?_, fun _ => ⟨es, content ++ delta, rfl⟩⟩
      simpa [Event.step] using hsteps
    · exact ⟨steps_concat h.steps rfl, fun _ => ⟨t.events, delta, rfl⟩⟩
  · rw [heq]
    split
    · refine ⟨?_, nofun⟩
      simpa [Function.comp_def] using h.steps
    · exact ⟨steps_concat h.steps (by simp [Event.step, ToolEvent.new]), nofun⟩
  · rw [heq]
    exact h

/-- A timeline stays empty until the first content packet. -/
theorem addAll_eq_nil (dump : M → J) {t : Timeline J} (h : t.WF) (ps : List (Packet M)) :
    (t.addAll dump ps).events = [] ↔ t.events = [] ∧ ∀ p ∈ ps, p.isContent = false := by
  induction ps generalizing t with
  | nil => simp
  | cons p ps ih =>
    rw [addAll_cons, ih (wf_add dump h p), List.forall_mem_cons, ← and_assoc]
    refine and_congr_left fun _ => ?_
    rcases add_cases dump t p with ⟨delta, hp, _, heq⟩ | ⟨id, name, hp, hid, _, heq⟩ |
      ⟨hp, hid, heq⟩
    · refine iff_of_false ?_ (by simp [Packet.isContent, hp])
      rw [heq]
      split
      · rename_i hopen
        obtain ⟨es, content, hes⟩ := h.openLast hopen
        rw [hes, extendLast_concat]
        simp
      · simp
    · refine iff_of_false ?_ (by simp [Packet.isContent, hp, hid])
      rw [heq]
      split
      · rename_i hany
        intro hnil
        rw [List.map_eq_nil_iff] at hnil
        simp [hnil] at hany
      · simp
    · simp [heq, Packet.isContent, hp, hid]

/-! ## Text runs -/

/-- The contents of the text events. -/
def texts (es : List (Event J)) : List Text := (es.filterMap Event.text?).map TextEvent.content

@[simp] theorem texts_append (es fs : List (Event J)) :
    texts (es ++ fs) = texts es ++ texts fs := by
  simp [texts]

@[simp] theorem texts_text (e : TextEvent) : texts [(.text e : Event J)] = [e.content] := rfl

@[simp] theorem texts_tool (e : ToolEvent J) : texts [.tool e] = [] := rfl

theorem texts_refineAt (dump : M → J) (p : Packet M) (id : String) (es : List (Event J)) :
    texts (es.map (refineAt dump p id)) = texts es := by
  simp [texts, List.filterMap_map]

/-- **The text events are the text runs**, continued from the open one. -/
theorem texts_addAll (dump : M → J) (ps : List (Packet M)) (t : Timeline J) :
    (t.openRun = false → texts (t.addAll dump ps).events =
      texts t.events ++ textRunsFrom none ps) ∧
    (∀ es e, t = ⟨es ++ [.text e], true⟩ → texts (t.addAll dump ps).events =
      texts es ++ textRunsFrom (some e.content) ps) := by
  induction ps generalizing t with
  | nil => simp +contextual [textRunsFrom]
  | cons p ps ih =>
    rw [addAll_cons]
    rcases add_cases dump t p with ⟨delta, hp, hid, heq⟩ | ⟨id, name, hp, hid, _, heq⟩ |
      ⟨hp, hid, heq⟩
    · simp only [textRunsFrom, hp]
      constructor
      · intro hopen
        rw [heq, if_neg (by simp [hopen])]
        exact (ih _).2 _ _ rfl
      · rintro es e rfl
        rw [heq, if_pos rfl, extendLast_concat]
        exact (ih _).2 _ _ rfl
    · have hclosed : (t.add dump p).openRun = false := by rw [heq]; split <;> rfl
      have htexts : texts (t.add dump p).events = texts t.events := by
        rw [heq]; split <;> simp [texts_refineAt]
      simp only [textRunsFrom, hp, hid]
      constructor
      · intro _
        rw [(ih _).1 hclosed, htexts]
        rfl
      · rintro es e rfl
        rw [(ih _).1 hclosed, htexts]
        simp
    · simp only [textRunsFrom, hp, hid, heq]
      exact ih t

/-! ## Tool records -/

/-- The tool events, without their steps. -/
def summaries (es : List (Event J)) : List (ToolSummary J) :=
  (es.filterMap Event.tool?).map ToolEvent.summary

@[simp] theorem summaries_append (es fs : List (Event J)) :
    summaries (es ++ fs) = summaries es ++ summaries fs := by
  simp [summaries]

@[simp] theorem summaries_nil : summaries ([] : List (Event J)) = [] := rfl

@[simp] theorem summaries_cons_text (e : TextEvent) (es : List (Event J)) :
    summaries (.text e :: es) = summaries es := rfl

@[simp] theorem summaries_cons_tool (e : ToolEvent J) (es : List (Event J)) :
    summaries (.tool e :: es) = e.summary :: summaries es := rfl

theorem summaries_extendLast (delta : Text) (es : List (Event J)) :
    summaries (extendLast delta es) = summaries es := by
  induction es with
  | nil => rfl
  | cons e es ih =>
    cases es with
    | nil => cases e <;> rfl
    | cons b es => cases e <;> simpa [extendLast] using ih

/-- `refine` on summaries. -/
def refineSummary (dump : M → J) : Packet M → ToolSummary J → ToolSummary J
  | .toolCall _ _ _ arguments, s => { s with arguments := some (dump arguments) }
  | .toolEnd _ _ _ status result err, s =>
    { s with status := some status, result := result.map dump, error := err }
  | _, s => s

theorem refine_summary (dump : M → J) (p : Packet M) (e : ToolEvent J) :
    (refine dump p e).summary = refineSummary dump p e.summary := by
  cases p <;> rfl

theorem summaries_refineAt (dump : M → J) (p : Packet M) (id : String) (es : List (Event J)) :
    summaries (es.map (refineAt dump p id)) =
      (summaries es).map fun s => if s.toolCallId = id then refineSummary dump p s else s := by
  induction es with
  | nil => rfl
  | cons e es ih =>
    cases e with
    | text e => exact ih
    | tool e =>
      have hcall : e.summary.toolCallId = e.toolCallId := rfl
      by_cases hid : e.toolCallId = id
      · simp [refineAt, hid, ih, refine_summary, hcall]
      · simp [refineAt, hid, ih, hcall]

theorem any_toolCallId? (es : List (Event J)) (id : String) :
    (es.any fun e => e.toolCallId? = some id) = true ↔
      id ∈ (summaries es).map ToolSummary.toolCallId := by
  simp only [List.any_eq_true, decide_eq_true_eq, summaries, List.map_map, List.mem_map,
    List.mem_filterMap, Event.toolCallId?, Option.map_eq_some_iff, Function.comp_apply]
  constructor
  · rintro ⟨e, he, r, hr, rfl⟩
    exact ⟨r, ⟨e, he, hr⟩, rfl⟩
  · rintro ⟨r, ⟨e, he, hr⟩, rfl⟩
    exact ⟨e, he, r, hr, rfl⟩

end Timeline

theorem mem_toolCallIds {ps : List (Packet M)} {id : String} :
    id ∈ toolCallIds ps ↔ ∃ p ∈ ps, p.toolCallId? = some id := by
  simp [toolCallIds]

theorem toolCallIds_snoc_none {p : Packet M} (h : p.toolCallId? = none) (ps : List (Packet M)) :
    toolCallIds (ps ++ [p]) = toolCallIds ps := by
  simp [toolCallIds, h]

theorem toolCallIds_snoc_old {p : Packet M} {id : String} (h : p.toolCallId? = some id)
    {ps : List (Packet M)} (hold : id ∈ toolCallIds ps) :
    toolCallIds (ps ++ [p]) = toolCallIds ps := by
  obtain ⟨q, hq, hqid⟩ := mem_toolCallIds.1 hold
  have hseen : [id].removeAll (ps.filterMap Packet.toolCallId?) = [] := by
    simp only [List.removeAll, List.filter_eq_nil_iff]
    simpa using ⟨q, hq, hqid⟩
  have hlast : [p].filterMap Packet.toolCallId? = [id] := by simp [h]
  rw [toolCallIds, List.filterMap_append, hlast, List.eraseDups_append, hseen]
  simp [toolCallIds]

theorem toolCallIds_snoc_new {p : Packet M} {id : String} (h : p.toolCallId? = some id)
    {ps : List (Packet M)} (hnew : id ∉ toolCallIds ps) :
    toolCallIds (ps ++ [p]) = toolCallIds ps ++ [id] := by
  have hunseen : [id].removeAll (ps.filterMap Packet.toolCallId?) = [id] := by
    simp only [List.removeAll, List.filter_eq_self]
    simpa [mem_toolCallIds] using hnew
  have hlast : [p].filterMap Packet.toolCallId? = [id] := by simp [h]
  rw [toolCallIds, List.filterMap_append, hlast, List.eraseDups_append, hunseen]
  rfl

theorem toolCallIds_nodup (ps : List (Packet M)) : (toolCallIds ps).Nodup := by
  induction ps using List.reverseRecOn with
  | nil => exact List.nodup_nil
  | append_singleton ps p ih =>
    cases hid : p.toolCallId? with
    | none => rwa [toolCallIds_snoc_none hid]
    | some id =>
      by_cases hold : id ∈ toolCallIds ps
      · rwa [toolCallIds_snoc_old hid hold]
      · rw [toolCallIds_snoc_new hid hold]
        exact List.nodup_append.2 ⟨ih, List.nodup_singleton id, by
          rintro a ha b hb rfl
          exact hold (List.mem_singleton.1 hb ▸ ha)⟩

theorem toolSummary_snoc_other (dump : M → J) {p : Packet M} {id : String}
    (h : p.toolCallId? ≠ some id) (ps : List (Packet M)) :
    toolSummary dump (ps ++ [p]) id = toolSummary dump ps id := by
  have hown : toolPackets (ps ++ [p]) id = toolPackets ps id := by simp [toolPackets, h]
  simp only [toolSummary, hown]

/-- A further packet of a tool call refines its summary. -/
theorem toolSummary_snoc_old (dump : M → J) {p : Packet M} {id : String}
    (h : p.toolCallId? = some id) {ps : List (Packet M)} (hold : id ∈ toolCallIds ps) :
    toolSummary dump (ps ++ [p]) id = Timeline.refineSummary dump p (toolSummary dump ps id) := by
  have hown : toolPackets (ps ++ [p]) id = toolPackets ps id ++ [p] := by simp [toolPackets, h]
  obtain ⟨q, hq, hqid⟩ := mem_toolCallIds.1 hold
  have hname : ∃ name, ((toolPackets ps id).filterMap Packet.toolName?).head? = some name := by
    have hmem : q ∈ toolPackets ps id := by simp [toolPackets, hq, hqid]
    cases hhead : ((toolPackets ps id).filterMap Packet.toolName?).head? with
    | some name => exact ⟨name, rfl⟩
    | none =>
      rw [List.head?_eq_none_iff, List.filterMap_eq_nil_iff] at hhead
      have hnone := hhead q hmem
      cases q <;> cases hqid <;> cases hnone
  obtain ⟨name, hname⟩ := hname
  simp only [toolSummary, hown, List.filterMap_append]
  cases p <;> cases h <;>
    simp [hname, Timeline.refineSummary, Packet.toolName?, Packet.arguments?, Packet.outcome?]

/-- The first packet of a tool call opens its summary. -/
theorem toolSummary_snoc_new (dump : M → J) {p : Packet M} {id name : String}
    (h : p.toolCallId? = some id) (hname : p.toolName? = some name) {ps : List (Packet M)}
    (hnew : id ∉ toolCallIds ps) :
    toolSummary dump (ps ++ [p]) id =
      Timeline.refineSummary dump p ⟨id, some name, none, none, none, none⟩ := by
  have hnone : toolPackets ps id = [] := by
    rw [toolPackets, List.filter_eq_nil_iff]
    intro q hq hid
    exact hnew (mem_toolCallIds.2 ⟨q, hq, by simpa using hid⟩)
  have hown : toolPackets (ps ++ [p]) id = [p] := by
    rw [toolPackets] at hnone
    simp [toolPackets, h, hnone]
  simp only [toolSummary, hown]
  cases p <;> cases h <;> cases hname <;> rfl

namespace Timeline

/-- **The tool events are one per `tool_call_id`**, each the summary of its packets. -/
theorem summaries_addAll (dump : M → J) (ps : List (Packet M)) :
    summaries ((new : Timeline J).addAll dump ps).events =
      (toolCallIds ps).map (toolSummary dump ps) := by
  induction ps using List.reverseRecOn with
  | nil => rfl
  | append_singleton ps p ih =>
    rw [addAll_snoc]
    generalize (new : Timeline J).addAll dump ps = t at ih
    have hids : (summaries t.events).map ToolSummary.toolCallId = toolCallIds ps := by
      rw [ih, List.map_map]
      exact (List.map_congr_left fun id _ => rfl).trans (List.map_id _)
    rcases add_cases dump t p with ⟨delta, _, hid, heq⟩ | ⟨id, name, _, hid, hname, heq⟩ |
      ⟨_, hid, heq⟩
    · have hsame : summaries (t.add dump p).events = summaries t.events := by
        rw [heq]; split <;> simp [summaries_extendLast]
      rw [hsame, ih, toolCallIds_snoc_none hid]
      exact List.map_congr_left fun id _ => (toolSummary_snoc_other dump (by simp [hid]) ps).symm
    · by_cases hold : id ∈ toolCallIds ps
      · rw [heq, if_pos ((any_toolCallId? t.events id).2 (hids ▸ hold)), summaries_refineAt, ih,
          List.map_map, toolCallIds_snoc_old hid hold]
        refine List.map_congr_left fun other _ => ?_
        by_cases hother : other = id
        · subst hother
          rw [toolSummary_snoc_old dump hid hold]
          exact if_pos rfl
        · rw [toolSummary_snoc_other dump (by simpa [hid] using Ne.symm hother)]
          exact if_neg hother
      · have hany : ¬ (t.events.any fun e => e.toolCallId? = some id) = true := fun hany =>
          hold (hids ▸ (any_toolCallId? t.events id).1 hany)
        rw [heq, if_neg hany, summaries_append, ih, toolCallIds_snoc_new hid hold, List.map_append]
        congr 1
        · refine List.map_congr_left fun other hother => (toolSummary_snoc_other dump ?_ ps).symm
          rintro hsome
          cases hid.symm.trans hsome
          exact hold hother
        · rw [summaries_cons_tool, summaries_nil, refine_summary, List.map_singleton,
            toolSummary_snoc_new dump hid hname hold]
          rfl
    · rw [heq, ih, toolCallIds_snoc_none hid]
      exact List.map_congr_left fun id _ => (toolSummary_snoc_other dump (by simp [hid]) ps).symm

end Timeline

theorem textRunsFrom_flatten (run : Option Text) (ps : List (Packet M)) :
    (textRunsFrom run ps).flatten = run.getD [] ++ deltas ps := by
  induction ps generalizing run with
  | nil => cases run <;> simp [textRunsFrom, deltas]
  | cons p ps ih =>
    cases hp : p.delta? with
    | some delta => simp [textRunsFrom, deltas, hp, ih]
    | none =>
      cases hid : p.toolCallId? with
      | some id => cases run <;> simp [textRunsFrom, deltas, hp, hid, ih]
      | none => simp [textRunsFrom, deltas, hp, hid, ih]

/-- The runs, joined, are the deltas. -/
theorem textRuns_flatten (ps : List (Packet M)) : (textRuns ps).flatten = deltas ps := by
  simp [textRuns, textRunsFrom_flatten]

end MeJournal
