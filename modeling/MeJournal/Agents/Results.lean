import MeJournal.Agents.OtherUsers
import MeJournal.Lib.Triple

/-!
# What the results of a turn say of the memories

A tool's result goes out in the end packet of its call, and to the model as the content of a `tool`
message.  It is made from rows that were loaded when the tool ran; the turn goes on after it, and
may rewrite the same memory.

* `ShownInv`, `runAgentStream_shown` — an invariant of the results shown so far and the world is
  kept by a turn, if the calls of the environment keep it.
* `createMemory_answers`, `updateMemory_answers` — a write returns the row that it leaves stored.
* `results_current` — every result is about live memories of the user, and says what they are
  unless a later one rewrites them.
-/

namespace MeJournal

/-! ## Invariants of the results -/

section Runtime

variable {W M : Type} {Inv : List M → W → Prop} {env : AgentEnv W M}

/-- The result in a packet. -/
def Packet.result? : Packet M → Option M
  | .toolEnd _ _ _ _ result _ => result
  | _ => none

/-- The results in the packets, in order. -/
def shown (ps : List (Packet M)) : List M := ps.filterMap Packet.result?

/-- After a call: its result is still to be shown. -/
def AwaitsEnd (Inv : List M → W → Prop) (rs : List M) (w : W) : Except PyException M → Prop
  | .ok r => Inv (rs ++ [r]) w
  | .error _ => Inv rs w

/-- The calls of the environment keep `Inv`. -/
structure ShownInv (env : AgentEnv W M) (Inv : List M → W → Prop) : Prop where
  create : ∀ rs w messages, Inv rs w → Inv rs (env.create w messages).2
  runTool : ∀ rs w name id args, Inv rs w →
    AwaitsEnd Inv rs (env.runTool w name id args).2 (env.runTool w name id args).1

/-- `Inv` of the results shown and the world. -/
abbrev Holding (Inv : List M → W → Prop) (ps : List (Packet M)) (s : RuntimeState W) : Prop :=
  Inv (shown ps) s.world

/-- A part of the turn that keeps `Inv`. -/
abbrev Holds {α : Type} (Inv : List M → W → Prop) (g : RuntimeGen W M α) : Prop :=
  Gen.Triple (fun _ _ => True) (Holding Inv) g (fun _ => Holding Inv) fun _ => Holding Inv

theorem holds_pure {α : Type} (a : α) : Holds Inv (pure a : RuntimeGen W M α) :=
  Gen.triple_pure fun _ _ h => h

theorem holds_raise {α : Type} (exc : PyExc) : Holds Inv (Gen.raise exc : RuntimeGen W M α) :=
  Gen.triple_raise fun _ _ h => h

theorem shown_snoc (ps : List (Packet M)) (p : Packet M) :
    shown (ps ++ [p]) = shown ps ++ p.result?.toList := by
  rw [shown, List.filterMap_append]
  cases hp : p.result? <;> simp [hp, shown]

/-- A packet without a result. -/
theorem holds_emit {p : Packet M} (hp : p.result? = none) :
    Holds Inv (Gen.emit p : RuntimeGen W M Unit) :=
  Gen.triple_emit fun ps s h => by
    rw [Holding, shown_snoc, hp, Option.toList_none, List.append_nil]
    exact ⟨trivial, h⟩

theorem appendMessage_holds (message : ChatMessage) :
    Holds Inv (appendMessage message : RuntimeGen W M Unit) :=
  Gen.triple_modify fun _ _ h => h

theorem emitContent_holds (content : Option Text) :
    Holds Inv (emitContent content : RuntimeGen W M Unit) := by
  cases content with
  | none => exact holds_pure ()
  | some content => exact holds_emit rfl

theorem readChunks_holds (turn : AgentTurn) (chunks : List Chunk) :
    Holds Inv (readChunks turn chunks : RuntimeGen W M AgentTurn) := by
  induction chunks generalizing turn with
  | nil => exact holds_pure turn
  | cons chunk chunks ih =>
    refine Gen.Triple.bind (S := fun _ => Holding Inv) ?_ ih
    unfold readChunk
    split
    · exact holds_pure _
    · exact (emitContent_holds _).bind fun _ => holds_pure _

theorem openStream_holds (h : ShownInv env Inv) : Holds Inv (openStream env) :=
  Gen.triple_of_silent (fun _ => rfl) fun _ s hs => h.create _ s.world s.messages hs

theorem streamOneTurn_holds (h : ShownInv env Inv) : Holds Inv (streamOneTurn env) := by
  refine (openStream_holds h).bind fun stream => (readChunks_holds _ _).bind fun turn =>
    Gen.Triple.bind (S := fun _ => Holding Inv) ?_ fun _ => holds_pure turn
  unfold raiseIf
  split
  · exact holds_pure ()
  · exact holds_raise _

theorem surfaceToolError_holds (tc : PartialToolCall) (exc : PyExc) (startEmitted : Bool) :
    Holds Inv (surfaceToolError tc exc startEmitted : RuntimeGen W M Unit) := by
  refine Gen.Triple.bind (S := fun _ => Holding Inv) ?_ fun _ =>
    (holds_emit rfl).bind fun _ => appendMessage_holds _
  split
  · exact holds_pure ()
  · exact holds_emit rfl

/-- The call itself; its result is not shown yet. -/
theorem callTool_awaits (h : ShownInv env Inv) (tc : PartialToolCall) (args : M) :
    Gen.Triple (fun _ _ => True) (Holding Inv) (callTool env tc args)
      (fun outcome ps s => AwaitsEnd Inv (shown ps) s.world outcome) fun _ => Holding Inv :=
  Gen.triple_of_silent (fun _ => rfl) fun _ s hs => h.runTool _ s.world tc.name tc.id args hs

theorem finishTool_holds (tc : PartialToolCall) (outcome : Except PyException M) :
    Gen.Triple (fun _ _ => True) (fun ps s => AwaitsEnd Inv (shown ps) s.world outcome)
      (finishTool env tc outcome) (fun _ => Holding Inv) fun _ => Holding Inv := by
  cases outcome with
  | ok result =>
    refine Gen.Triple.bind (S := fun _ => Holding Inv) (Gen.triple_emit fun ps s hs =>
      ⟨trivial, ?_⟩) fun _ => Gen.Triple.bind (S := fun _ => Holding Inv) ?_ fun _ =>
        appendMessage_holds _
    · rw [Holding, shown_snoc]
      exact hs
    · unfold orRaise
      split
      · exact holds_raise _
      · exact holds_pure _
  | error exc =>
    dsimp only [finishTool, AwaitsEnd]
    split
    · exact surfaceToolError_holds tc exc true
    · exact (holds_emit rfl).bind fun _ => holds_raise _

theorem runOneTool_holds (h : ShownInv env Inv) (tc : PartialToolCall) :
    Holds Inv (runOneTool env tc) := by
  unfold runOneTool
  split
  · split
    · split
      · exact surfaceToolError_holds tc _ false
      · exact holds_raise _
    · exact (holds_emit rfl).bind fun _ => (holds_emit rfl).bind fun _ =>
        (callTool_awaits h tc _).bind fun outcome => finishTool_holds tc outcome
  · exact holds_raise _

theorem runTools_holds (h : ShownInv env Inv) (tcs : List PartialToolCall) :
    Holds Inv (runTools env tcs) := by
  induction tcs with
  | nil => exact holds_pure ()
  | cons tc tcs ih => exact (runOneTool_holds h tc).bind fun _ => ih

theorem agentLoop_holds (h : ShownInv env Inv) (n : Nat) : Holds Inv (agentLoop env n) := by
  induction n with
  | zero => exact holds_emit rfl
  | succ n ih =>
    refine (streamOneTurn_holds h).bind fun turn => (appendMessage_holds _).bind fun _ => ?_
    split
    · exact holds_pure ()
    · exact (runTools_holds h _).bind fun _ => ih

theorem agentFailed_holds (exc : PyExc) :
    Holds Inv (agentFailed exc : RuntimeGen W M Unit) := by
  unfold agentFailed
  split
  · exact holds_emit rfl
  · exact holds_raise exc

/-- **A whole turn keeps `Inv`** of the results that it has shown. -/
theorem runAgentStream_shown (h : ShownInv env Inv) (pf : Platform) (input : AgentInput) {w : W}
    (hw : Inv [] w) (messages : List ChatMessage) :
    let run := runAgentStream pf env input ⟨messages, w⟩
    Inv (shown run.emitted) run.state.world := by
  intro run
  have hturn : Holds Inv (runAgentStream pf env input) := by
    refine Gen.Triple.bind (S := fun _ => Holding Inv)
      (Gen.triple_ofExcept (fun _ _ _ _ hs => hs) fun _ _ _ _ hs => hs) fun messages => ?_
    refine Gen.Triple.bind (S := fun _ => Holding Inv)
      (Gen.triple_modify fun _ _ hs => hs) fun _ => ?_
    exact (agentLoop_holds h maxToolTurns).handle agentFailed_holds
  obtain ⟨-, hends⟩ := hturn [] ⟨messages, w⟩ hw
  cases hr : (runAgentStream pf env input ⟨messages, w⟩).result with
  | ok a =>
    rw [hr] at hends
    exact hends
  | error e =>
    rw [hr] at hends
    exact hends

end Runtime

namespace Tools

open Transactions ManageMemory Patches

variable {R L V : Type}

/-! ## What a write returns -/

/-- The row `m` is stored, live and the user's, and the other rows are still there. -/
structure Answers (userId : UUID) (t t' : MemoryTable) (m : Memory) : Prop where
  stored : m ∈ t'.rows
  userId : m.userId = userId
  live : m.live
  others : ∀ n ∈ t.rows, n.id ≠ m.id → n ∈ t'.rows

/-- A write that returns answers with the row it leaves; one that raises changes no row. -/
def AnswersAs (userId : UUID) (w : World R) (p : Except ServiceError Memory × World R) : Prop :=
  match p.1 with
  | .ok m => Answers userId w.memories p.2.memories m
  | .error _ => p.2.memories = w.memories

section Writes

variable {userId : UUID} {w : World R}

/-- A write that found its row stored already. -/
theorem answersAs_stored {m : Memory} (hm : m ∈ w.memories.rows) (huser : m.userId = userId)
    (hlive : m.live) : AnswersAs userId w (.ok m, w) :=
  ⟨hm, huser, hlive, fun _ hn _ => hn⟩

theorem createMemory_answers (pf : Platform) (client : MemoryClient R) (env : Env)
    (args : CreateArgs) (w : World R) :
    AnswersAs userId w (createMemory pf client env userId args w) := by
  unfold createMemory
  split
  · exact rfl
  rename_i text hcheck
  split
  · rename_i existing hfound
    obtain ⟨id, -, hfound⟩ := Option.bind_eq_some_iff.1 hfound
    obtain ⟨hrow, -, huser⟩ := findOwned_eq_some.1 hfound
    split
    · exact rfl
    · rename_i hlive
      exact answersAs_stored hrow huser (by simpa using hlive)
  dsimp only
  split
  · exact rfl
  · split
    · rename_i existing hfound
      have hmatch := List.find?_some hfound
      simp only [Bool.and_eq_true, decide_eq_true_eq, Option.isNone_iff_eq_none] at hmatch
      exact answersAs_stored (List.mem_of_find?_eq_some hfound) hmatch.1.1 hmatch.2
    · exact rfl
  · rename_i memories hins
    obtain ⟨-, hinsert⟩ := insertOnConflictDoNothing_inserted hins
    have hbecomes := pushRow_becomes client env (newRow pf env userId args text) false w
    have hdeleted := pushRow_deletedAt client env (newRow pf env userId args text) false w
    have hadd : pushRow client env (newRow pf env userId args text) false w =
        sendToSupermemoryAdd client env (newRow pf env userId args text) w := rfl
    rw [hadd] at hbecomes hdeleted
    refine ⟨?_, hbecomes.userId, hdeleted, fun n hn hne => ?_⟩
    · exact Table.mem_put_self ((Table.mem_insert? hinsert).2 (Or.inr rfl)) hbecomes.id.symm
    · exact Table.mem_put_of_ne ((Table.mem_insert? hinsert).2 (Or.inl hn)) hne

theorem updateMemory_answers (pf : Platform) (client : MemoryClient R) (env : Env)
    (memoryId : UUID) (args : UpdateArgs) (w : World R) :
    AnswersAs userId w (updateMemory pf client env userId memoryId args w) := by
  unfold updateMemory
  split
  · exact rfl
  rename_i row hfind
  obtain ⟨hfound, hlive⟩ := Option.filter_eq_some_iff.1 hfind
  obtain ⟨hrow, -, huser⟩ := findOwned_eq_some.1 hfound
  split
  · exact rfl
  rename_i row' changed hpatch
  split
  · exact rfl
  · rename_i memories hflush
    have hpushed := pushRow_becomes client env row' changed w
    have hbecomes := (applyPatch_becomes hpatch).trans hpushed
    have hrow' := applyPatch_becomes hpatch
    have hdeleted : (pushRow client env row' changed w).1.deletedAt = row.deletedAt := by
      rw [pushRow_deletedAt, applyPatch_deletedAt hpatch]
    have hput : memories.put (pushRow client env row' changed w).1 =
        w.memories.put (pushRow client env row' changed w).1 := by
      rw [flush_ok hflush, Table.put_put (by simp)]
    have hlive : row.live := by simpa using hlive
    refine ⟨?_, hbecomes.userId.trans huser, hdeleted.trans hlive, fun n hn hne => ?_⟩
    · dsimp only
      rw [hput]
      exact Table.mem_put_self hrow hbecomes.id.symm
    · dsimp only
      rw [hput]
      exact Table.mem_put_of_ne hn hne

end Writes

/-! ## What the results say -/

/-- The memories that a result is about. -/
def ToolModel.about : ToolModel → List UUID
  | .memoryDetailResult view => [view.id]
  | .searchMemoriesResult result => result.hits.map ToolHit.memoryId
  | _ => []

/-- What the result says of the memory with the id of `m` is what `m` has. -/
def ToolModel.Tells (m : Memory) : ToolModel → Prop
  | .memoryDetailResult view => view = agentView m
  | .searchMemoriesResult result =>
    ∀ hit ∈ result.hits, hit.memoryId = m.id → hit = toolHit (m, hit.similarity)
  | _ => False

/-- The result of a write to the memory `id`. -/
def ToolModel.rewrites (id : UUID) : ToolModel → Bool
  | .memoryDetailResult view => view.id = id
  | _ => false

/-- The memory `id` is a live row of the user, and what `r` says of it holds of that row, unless
one of the `later` results rewrites it. -/
def HoldsOf (userId : UUID) (t : MemoryTable) (r : ToolModel) (later : List ToolModel)
    (id : UUID) : Prop :=
  ∃ m ∈ t.rows, m.id = id ∧ m.userId = userId ∧ m.live ∧
    ((∀ r' ∈ later, r'.rewrites id = false) → r.Tells m)

/-- The results, in order, hold of the rows. -/
def Current (userId : UUID) (rs : List ToolModel) (t : MemoryTable) : Prop :=
  ∀ before r later, rs = before ++ r :: later → ∀ id ∈ r.about, HoldsOf userId t r later id

section Results

variable {userId : UUID} {t t' : MemoryTable} {rs : List ToolModel}

/-- One more result: it holds itself, and the earlier ones hold with it behind them. -/
theorem Current.snoc {r : ToolModel} (hlast : ∀ id ∈ r.about, HoldsOf userId t' r [] id)
    (hearlier : ∀ before r' later, rs = before ++ r' :: later → ∀ id ∈ r'.about,
      HoldsOf userId t' r' (later ++ [r]) id) : Current userId (rs ++ [r]) t' := by
  intro before r' later heq id hid
  rcases List.eq_nil_or_concat later with rfl | ⟨later, r'', rfl⟩
  · obtain ⟨-, hsingle⟩ := List.append_inj' heq rfl
    obtain rfl := List.singleton_inj.1 hsingle
    exact hlast id hid
  · rw [List.concat_eq_append] at heq ⊢
    rw [← List.cons_append, ← List.append_assoc] at heq
    obtain ⟨rfl, hsingle⟩ := List.append_inj' heq rfl
    obtain rfl := List.singleton_inj.1 hsingle
    exact hearlier before r' later rfl id hid

/-- The result of a search. -/
theorem Current.search (h : Current userId rs t) {hits : List (Memory × Option PyFloat)}
    (hhits : ∀ hit ∈ hits, hit.1 ∈ t.rows ∧ hit.1.userId = userId ∧ hit.1.live)
    (source : SearchSource) :
    Current userId (rs ++ [.searchMemoriesResult ⟨source, hits.map toolHit⟩]) t := by
  refine Current.snoc (fun id hid => ?_) fun before r' later heq id hid => ?_
  · obtain ⟨shownHit, hmem, rfl⟩ := List.mem_map.1 hid
    obtain ⟨hit, hhit, rfl⟩ := List.mem_map.1 hmem
    obtain ⟨hrow, huser, hlive⟩ := hhits hit hhit
    refine ⟨hit.1, hrow, rfl, huser, hlive, fun _ other hother hsame => ?_⟩
    -- another hit on the memory shows the same row
    obtain ⟨hit', hhit', rfl⟩ := List.mem_map.1 hother
    have hrow' : hit'.1 = hit.1 := t.eq_of_key_eq (hhits hit' hhit').1 hrow hsame
    rw [← hrow']
    rfl
  · obtain ⟨m, hm, hmid, huser, hlive, htells⟩ := h before r' later heq id hid
    exact ⟨m, hm, hmid, huser, hlive, fun hnone => htells fun r hr =>
      hnone r (List.mem_append_left _ hr)⟩

/-- The result of a write. -/
theorem Current.write (h : Current userId rs t) {m : Memory} (hm : Answers userId t t' m) :
    Current userId (rs ++ [.memoryDetailResult (agentView m)]) t' := by
  refine Current.snoc (fun id hid => ?_) fun before r' later heq id hid => ?_
  · obtain rfl := List.mem_singleton.1 hid
    exact ⟨m, hm.stored, rfl, hm.userId, hm.live, fun _ => rfl⟩
  · by_cases hsame : m.id = id
    · -- the new result rewrites the memory
      refine ⟨m, hm.stored, hsame, hm.userId, hm.live, fun hnone => ?_⟩
      have hno := hnone _ (List.mem_append_right later (List.mem_singleton.2 rfl))
      simp [ToolModel.rewrites, agentView, hsame] at hno
    · obtain ⟨n, hn, hnid, huser, hlive, htells⟩ := h before r' later heq id hid
      refine ⟨n, hm.others n hn fun heq => hsame (heq.symm.trans hnid), hnid, huser, hlive,
        fun hnone => htells fun r hr => hnone r (List.mem_append_left _ hr)⟩

end Results

/-! ## A whole turn -/

theorem managedRow_answers (pf : Platform) (sp : SearchPlatform) (client : SearchClient R)
    (env : Env) (userId : UUID) (args : ManageMemoryArgs) (v : AtomicStore R) :
    let p := managedRow (atomicService pf sp client) env userId args v
    AnswersAs userId v.world (p.1, p.2.world) := by
  unfold managedRow
  cases args.action with
  | create =>
    dsimp only
    split
    · exact createMemory_answers pf client.toMemoryClient env _ v.world
    · exact rfl
  | update =>
    dsimp only
    split
    · exact updateMemory_answers pf client.toMemoryClient env _ _ v.world
    · exact rfl

/-- The calls of the tools keep the results current. -/
theorem atomicService_current (pf : Platform) (sp : SearchPlatform) (client : SearchClient R)
    (setup : TurnSetup L) :
    ShownInv (agentEnv (atomicService pf sp client) setup)
      fun rs w => Current setup.userId rs w.store.world.memories where
  create := fun _ _ _ h => h
  runTool := by
    rintro rs ⟨v, llm, ticks⟩ name id args h
    cases args with
    | searchMemoriesArgs args =>
      have howned := @searchMemories_owned R sp client setup.userId args.q args.limit v.world
      dsimp only [agentEnv, runTool, searchMemoriesTool, atomicService]
      cases hresult : (searchMemories sp client setup.userId args.q args.limit v.world).1 with
      | ok result => exact h.search (howned hresult) result.source
      | error e => exact h
    | manageMemoryArgs args =>
      have hanswers := managedRow_answers pf sp client (setup.clock ticks) setup.userId args v
      dsimp only [agentEnv, runTool, manageMemoryTool]
      revert hanswers
      generalize managedRow (atomicService pf sp client) (setup.clock ticks) setup.userId args v = p
      obtain ⟨result, v'⟩ := p
      intro hanswers
      cases result with
      | ok m => exact h.write hanswers
      | error e =>
        have hkept : v'.world.memories = v.world.memories := hanswers
        dsimp only [Except.map, Except.mapError, AwaitsEnd]
        rw [hkept]
        exact h
    | searchMemoriesResult result => exact h
    | memoryDetailResult memory => exact h

/-- After a turn on a session, its results are current. -/
theorem sessionTurn_current (pf : Platform) (sp : SearchPlatform) (client : SearchClient R)
    (setup : TurnSetup L) (input : AgentInput) (w : World R) (llm : L) :
    let run := sessionTurn pf sp client setup input w llm
    Current setup.userId (shown run.emitted) run.state.world.store.db.committed := by
  intro run
  obtain ⟨hemitted, -, -, hcommitted⟩ := sessionTurn_alike pf sp client setup input w llm
  have hturn := runAgentStream_shown (atomicService_current pf sp client setup) pf input
    (w := ⟨⟨w, []⟩, llm, 0⟩) (fun before r later heq => by simp at heq) []
  rw [hemitted, hcommitted.committed]
  exact hturn

/-- **What the results say is what is stored.**  Every memory that a result of a turn shows is,
after the turn, a live row of its user, and the row has what the result says of it, unless a later
result of the turn rewrites the memory. -/
theorem results_current (pf : Platform) (sp : SearchPlatform) (client : SearchClient R)
    (setup : TurnSetup L) (input : AgentInput) (w : World R) (llm : L) :
    let run := sessionTurn pf sp client setup input w llm
    let t := run.state.world.store.db.committed
    ∀ before r later, shown run.emitted = before ++ r :: later → ∀ id ∈ r.about,
      ∃ m ∈ t.rows, m.id = id ∧ m.userId = setup.userId ∧ m.live ∧
        ((∀ r' ∈ later, r'.rewrites id = false) → r.Tells m) := by
  exact sessionTurn_current pf sp client setup input w llm

/-! ## A memory that is written and rewritten -/

def ranInput : ArgsInput where
  action := "create".toList
  memoryId := none
  text := some "ran".toList
  eventDate := some sampleDate.isoformat
  eventTime := .null
  eventTz := some "UTC".toList
  locationLat := none
  locationLng := none
  locationLabel := none
  idempotencyId := none

def ranFarInput : ArgsInput :=
  { ranInput with
    action := "update".toList
    memoryId := some (uuidText 3)
    text := some "ran far".toList }

/-- A chunk that calls `manage_memory`. -/
def manageChunk (id : String) (arguments : Text) : Chunk :=
  ⟨[⟨none, some [⟨0, some id, some ⟨some "manage_memory", some arguments⟩⟩], some "tool_calls"⟩]⟩

/-- A model that writes a memory, then another text for it, and ends. -/
def writesTwice : TurnSetup Nat where
  userId := 7
  library := { plainTools with
    manageInput := fun json => .ok (if json = ['+'] then ranInput else ranFarInput) }
  model n _ := (⟨([[manageChunk "call_0" ['+']], [manageChunk "call_1" ['!']]][n]?).getD [], none⟩,
    n + 1)
  clock _ := ⟨0, 0, 3⟩

/-- The turn, from no memories. -/
def writesTwiceTurn :
    GenRun (RuntimeState (TurnWorld (SessionStore Backend) Nat)) PyExc (Packet ToolModel) Unit :=
  sessionTurn utcPlatform tableOrder namesTheOther writesTwice askedRan
    ⟨Table.empty, ⟨fun _ => none, .err .base⟩, []⟩ 0

def ranView (text : String) : MemoryAgentView :=
  ⟨3, text.toList, sampleDate, none, "UTC".toList, none, none, none⟩

theorem results_current_rewritten :
    ∃ m ∈ writesTwiceTurn.state.world.store.db.committed.rows, m.id = 3 ∧ m.userId = 7 ∧ m.live ∧
      ((∀ r' ∈ ([] : List ToolModel), r'.rewrites 3 = false) →
        (ToolModel.memoryDetailResult (ranView "ran far")).Tells m) :=
  results_current utcPlatform tableOrder namesTheOther writesTwice askedRan
    ⟨Table.empty, ⟨fun _ => none, .err .base⟩, []⟩ 0 [.memoryDetailResult (ranView "ran")] _ []
    (by decide +kernel) 3 (by decide)

end Tools

end MeJournal
