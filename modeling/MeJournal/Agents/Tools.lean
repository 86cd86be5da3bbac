import MeJournal.Agents.Environments
import MeJournal.Memory.Patches
import MeJournal.Memory.Search

/-!
# The tools of the agent

`app/agents/tools/memory.py` and `app/agents/context.py`, with `MemoryAgentView` of
`app/schemas/memory.py`: the two tools, over a memory service on any store `V`, and the
environment of the runtime that they make.  The chat-completions client and the JSON of pydantic
stay parameters.

* `manageMemoryTool`, `searchMemoriesTool` — `run` of the two tools.
* `agentEnv` — the environment of `run_agent_stream`.
* `ServiceLockstep`, `agentEnv_lockstep` — services that answer alike give environments that do.
-/

namespace MeJournal

namespace Tools

open ManageMemory Patches

/-! ## The models -/

/-- `SearchMemoriesArgs`. -/
structure SearchMemoriesArgs where
  q : Text
  limit : Int
  limit_range : 1 ≤ limit ∧ limit ≤ 50
  deriving DecidableEq

/-- `SearchHit` of the tool. -/
structure ToolHit where
  memoryId : UUID
  eventDate : Date
  textPreview : Text
  similarity : Option PyFloat
  deriving DecidableEq

/-- `SearchMemoriesResult`. -/
structure SearchMemoriesResult where
  source : SearchSource
  hits : List ToolHit
  deriving DecidableEq

/-- `MemoryAgentView`. -/
structure MemoryAgentView where
  id : UUID
  text : Text
  eventDate : Date
  eventTime : Option TimeOfDay
  eventTz : Text
  locationLat : Option PyFloat
  locationLng : Option PyFloat
  locationLabel : Option Text
  deriving DecidableEq

/-- The arguments and results of the tools. -/
inductive ToolModel where
  | searchMemoriesArgs (args : SearchMemoriesArgs)
  | manageMemoryArgs (args : ManageMemoryArgs)
  | searchMemoriesResult (result : SearchMemoriesResult)
  | memoryDetailResult (memory : MemoryAgentView)
  deriving DecidableEq

/-- `MemoryAgentView.model_validate(row, from_attributes=True)`. -/
def agentView (row : Memory) : MemoryAgentView where
  id := row.id
  text := row.text
  eventDate := row.eventDate
  eventTime := row.eventTime
  eventTz := row.eventTz
  locationLat := row.locationLat
  locationLng := row.locationLng
  locationLabel := row.locationLabel

/-- One hit of `SearchMemoriesTool.run`. -/
def toolHit (hit : Memory × Option PyFloat) : ToolHit where
  memoryId := hit.1.id
  eventDate := hit.1.eventDate
  textPreview := hit.1.text.take 300
  similarity := hit.2

/-! ## Arguments -/

/-- What pydantic contributes: JSON, and the texts of its errors. -/
structure ToolLibrary where
  args : ArgsLibrary
  /-- The fields `q` and `limit` of a JSON object, each of its type, or the text of the error. -/
  searchInput : Text → Except Text (Text × Option Int)
  /-- The fields of `ManageMemoryArgs`. -/
  manageInput : Text → Except Text ArgsInput
  /-- `str` of the error. -/
  refusal : ArgsError → Text
  /-- `model_dump_json`. -/
  dumpJson : ToolModel → Except PyException Text

/-- `pydantic.ValidationError`. -/
def validationError (message : Text) : PyException :=
  ⟨⟨"ValidationError", ["ValueError", "Exception"], message⟩,
    by simp [PyExc.isException, PyExc.isinstance]⟩

/-- `limit: int = Field(10, ge=1, le=50)`. -/
def validateSearch (q : Text) (limit : Option Int) : Except ArgsError SearchMemoriesArgs :=
  if h : 1 ≤ limit.getD 10 ∧ limit.getD 10 ≤ 50 then .ok ⟨q, limit.getD 10, h⟩
  else .error (.field "limit")

/-- `ARGS_MODEL.model_validate_json` of the tool. -/
def validateArgs (lib : ToolLibrary) (tool : String) (json : Text) : Except PyException ToolModel :=
  if tool = "search_memories" then
    match lib.searchInput json with
    | .error message => .error (validationError message)
    | .ok (q, limit) =>
      match validateSearch q limit with
      | .error e => .error (validationError (lib.refusal e))
      | .ok args => .ok (.searchMemoriesArgs args)
  else
    match lib.manageInput json with
    | .error message => .error (validationError message)
    | .ok input =>
      match validate lib.args input with
      | .error e => .error (validationError (lib.refusal e))
      | .ok args => .ok (.manageMemoryArgs args)

/-! ## Exceptions -/

/-- An exception of a library, which is an `Exception`. -/
def libraryException (exc : PyExc) : PyException :=
  if h : exc.isinstance ["Exception"] = true then ⟨exc, h⟩
  else ⟨{ exc with bases := "Exception" :: exc.bases },
    by simp [PyExc.isException, PyExc.isinstance]⟩

/-- The exception objects of the service; `str` of a `KeyError` quotes its argument. -/
def serviceException : ServiceError → PyException
  | .notFound id =>
    ⟨⟨"MemoryNotFound", ["KeyError", "LookupError", "Exception"], '\'' :: uuidText id ++ ['\'']⟩,
      by simp [PyExc.isException, PyExc.isinstance]⟩
  | .duplicate message =>
    ⟨⟨"MemoryDuplicate", ["ValueError", "Exception"], message⟩,
      by simp [PyExc.isException, PyExc.isinstance]⟩
  | .validation message =>
    ⟨⟨"MemoryValidationError", ["ValueError", "Exception"], message⟩,
      by simp [PyExc.isException, PyExc.isinstance]⟩
  | .idempotencyReused id =>
    ⟨⟨"MemoryIdempotencyReused", ["ValueError", "Exception"], uuidText id⟩,
      by simp [PyExc.isException, PyExc.isinstance]⟩
  | .integrity constraint =>
    ⟨⟨"IntegrityError", ["DatabaseError", "DBAPIError", "StatementError", "SQLAlchemyError",
      "Exception"], constraint.toList⟩, by simp [PyExc.isException, PyExc.isinstance]⟩
  | .noResultFound =>
    ⟨⟨"NoResultFound", ["InvalidRequestError", "SQLAlchemyError", "Exception"],
      "No row was found when one was required".toList⟩,
      by simp [PyExc.isException, PyExc.isinstance]⟩
  | .raised exc => libraryException exc

/-- The model sees the error and the turn goes on. -/
def recoverable (e : ServiceError) : Bool :=
  (serviceException e).val.isinstance modelRecoverableToolErrors

/-- A refused text ends the turn. -/
theorem refused_not_recoverable (e : DbError) : recoverable (.raised e.exc) = false := by
  obtain ⟨cls, message⟩ := e
  cases cls <;> rfl

/-! ## The tools -/

variable {V L : Type}

/-- What the tools call of `app/services/memory.py`. -/
structure MemoryService (V : Type) where
  search : UUID → Text → Int → V → Except ServiceError SearchResult × V
  create : Env → UUID → CreateArgs → V → Except ServiceError Memory × V
  update : Env → UUID → UUID → UpdateArgs → V → Except ServiceError Memory × V

/-- `SearchMemoriesTool.run`. -/
def searchMemoriesTool (service : MemoryService V) (userId : UUID) (args : SearchMemoriesArgs)
    (v : V) : Except ServiceError ToolModel × V :=
  let (search, v') := service.search userId args.q args.limit v
  (search.map fun s => .searchMemoriesResult ⟨s.source, s.hits.map toolHit⟩, v')

/-- The arguments that `ManageMemoryTool.run` gives `create_memory`. -/
def createArgs (args : ManageMemoryArgs) (text : Text) (eventDate : Date) (eventTz : Text) :
    CreateArgs where
  text := text
  eventDate := eventDate
  eventTz := eventTz
  eventTime := args.eventTime.map PyTime.clock
  locationLat := args.locationLat
  locationLng := args.locationLng
  locationLabel := args.locationLabel
  idempotencyId := args.idempotencyId

/-- The row that `ManageMemoryTool.run` shows. -/
def managedRow (service : MemoryService V) (env : Env) (userId : UUID) (args : ManageMemoryArgs)
    (v : V) : Except ServiceError Memory × V :=
  match args.action with
  | .create =>
    match args.text, args.eventDate, args.eventTz with
    | some text, some eventDate, some eventTz =>
      service.create env userId (createArgs args text eventDate eventTz) v
    | _, _, _ => (.error (.raised Patches.assertionError), v)
  | .update =>
    match args.memoryId with
    | some memoryId => service.update env userId memoryId (unsetUnprovided args).columns v
    | none => (.error (.raised Patches.assertionError), v)

/-- `ManageMemoryTool.run`. -/
def manageMemoryTool (service : MemoryService V) (env : Env) (userId : UUID)
    (args : ManageMemoryArgs) (v : V) : Except ServiceError ToolModel × V :=
  let (row, v') := managedRow service env userId args v
  (row.map fun m => .memoryDetailResult (agentView m), v')

/-! ## The environment of the runtime -/

/-- What a turn is run with: the user, the model, and the clock that the `n`-th call reads. -/
structure TurnSetup (L : Type) where
  userId : UUID
  library : ToolLibrary
  model : L → List ChatMessage → ModelStream × L
  clock : Nat → Env

/-- The store, the state of the model and the number of calls made. -/
structure TurnWorld (V L : Type) where
  store : V
  llm : L
  ticks : Nat

/-- `tool.run`; `model_validate_json` gives each tool its own arguments. -/
def runTool (service : MemoryService V) (setup : TurnSetup L) (w : TurnWorld V L)
    (args : ToolModel) : Except PyException ToolModel × TurnWorld V L :=
  let (outcome, store) :=
    match args with
    | .searchMemoriesArgs args => searchMemoriesTool service setup.userId args w.store
    | .manageMemoryArgs args =>
      manageMemoryTool service (setup.clock w.ticks) setup.userId args w.store
    | _ => (.error (.raised Patches.assertionError), w.store)
  (outcome.mapError serviceException, { w with store := store, ticks := w.ticks + 1 })

def agentEnv (service : MemoryService V) (setup : TurnSetup L) :
    AgentEnv (TurnWorld V L) ToolModel where
  create w messages :=
    let (stream, llm) := setup.model w.llm messages
    (stream, { w with llm := llm })
  validate := validateArgs setup.library
  runTool w _ _ args := runTool service setup w args
  dumpJson := setup.library.dumpJson

/-! ## Services in lockstep -/

variable {V' : Type}

/-- The stores after a call of the service. -/
def CallEnds {α : Type} (P F : V → V' → Prop) (v : V) (v' : V') : Except ServiceError α → Prop
  | .ok _ => P v v'
  | .error e => if recoverable e then P v v' else F v v'

/-- The two calls answer alike, and end in related stores. -/
def CallsAlike {α : Type} (P F : V → V' → Prop) (p : Except ServiceError α × V)
    (p' : Except ServiceError α × V') : Prop :=
  p.1 = p'.1 ∧ CallEnds P F p.2 p'.2 p.1

/-- Two services that answer a user alike from related stores; a call whose exception ends the turn
may leave them related by `F` only. -/
structure ServiceLockstep (userId : UUID) (P F : V → V' → Prop) (service : MemoryService V)
    (service' : MemoryService V') : Prop where
  search : ∀ q limit v v', P v v' →
    CallsAlike P F (service.search userId q limit v) (service'.search userId q limit v')
  create : ∀ env args v v', P v v' →
    CallsAlike P F (service.create env userId args v) (service'.create env userId args v')
  update : ∀ env memoryId args v v', P v v' →
    CallsAlike P F (service.update env userId memoryId args v)
      (service'.update env userId memoryId args v')
  lost : ∀ v v', P v v' → F v v'

/-- Related stores, the same state of the model and the same clock. -/
def InTurn (P : V → V' → Prop) (w : TurnWorld V L) (w' : TurnWorld V' L) : Prop :=
  P w.store w'.store ∧ w.llm = w'.llm ∧ w.ticks = w'.ticks

section

variable {P F : V → V' → Prop} {service : MemoryService V} {service' : MemoryService V'}
  {userId : UUID}

theorem CallsAlike.map {α β : Type} {p : Except ServiceError α × V}
    {p' : Except ServiceError α × V'} (h : CallsAlike P F p p') (f : α → β) :
    CallsAlike P F (p.1.map f, p.2) (p'.1.map f, p'.2) := by
  obtain ⟨r, v⟩ := p
  obtain ⟨r', v'⟩ := p'
  obtain ⟨hresult, hends⟩ := h
  obtain rfl : r = r' := hresult
  refine ⟨rfl, ?_⟩
  cases r with
  | ok a => exact hends
  | error e => exact hends

theorem callEnds_of {α : Type} {v : V} {v' : V'} (hP : P v v') (hF : F v v')
    (r : Except ServiceError α) : CallEnds P F v v' r := by
  cases r with
  | ok a => exact hP
  | error e =>
    dsimp only [CallEnds]
    split
    · exact hP
    · exact hF

/-- A call that fails before it reaches the service. -/
theorem ServiceLockstep.refused {α : Type} (h : ServiceLockstep userId P F service service')
    (e : ServiceError) {v : V} {v' : V'} (hv : P v v') :
    CallsAlike P F ((.error e, v) : Except ServiceError α × V) (.error e, v') :=
  ⟨rfl, callEnds_of hv (h.lost v v' hv) _⟩

theorem managedRow_alike (h : ServiceLockstep userId P F service service') (env : Env)
    (args : ManageMemoryArgs) {v : V} {v' : V'} (hv : P v v') :
    CallsAlike P F (managedRow service env userId args v)
      (managedRow service' env userId args v') := by
  unfold managedRow
  cases args.action with
  | create =>
    dsimp only
    split
    · exact h.create env _ v v' hv
    · exact h.refused _ hv
  | update =>
    dsimp only
    split
    · exact h.update env _ _ v v' hv
    · exact h.refused _ hv

/-- **Services that answer alike give environments that do.** -/
theorem agentEnv_lockstep (setup : TurnSetup L)
    (h : ServiceLockstep setup.userId P F service service') :
    EnvLockstep (InTurn P) (InTurn F) (agentEnv service setup) (agentEnv service' setup) where
  create := by
    rintro ⟨v, llm, ticks⟩ ⟨v', llm', ticks'⟩ messages ⟨hv, hllm, hticks⟩
    obtain rfl : llm = llm' := hllm
    exact ⟨rfl, hv, rfl, hticks⟩
  validate := rfl
  runTool := by
    rintro ⟨v, llm, ticks⟩ ⟨v', llm', ticks'⟩ _ _ args ⟨hv, hllm, hticks⟩
    obtain rfl : llm = llm' := hllm
    obtain rfl : ticks = ticks' := hticks
    -- what every tool leaves for the runtime
    have hfinish : ∀ (p : Except ServiceError ToolModel × V)
        (p' : Except ServiceError ToolModel × V'), CallsAlike P F p p' →
        p.1.mapError serviceException = p'.1.mapError serviceException ∧
          CallSettles (InTurn P) (InTurn F) (⟨p.2, llm, ticks + 1⟩ : TurnWorld V L)
            ⟨p'.2, llm, ticks + 1⟩ (p.1.mapError serviceException) := by
      rintro ⟨r, v⟩ ⟨r', v'⟩ ⟨hresult, hends⟩
      obtain rfl : r = r' := hresult
      refine ⟨rfl, ?_⟩
      cases r with
      | ok a => exact ⟨hends, rfl, rfl⟩
      | error e =>
        dsimp only [CallEnds] at hends
        dsimp only [Except.mapError, CallSettles]
        by_cases hrec : recoverable e = true
        · rw [if_pos hrec] at hends
          rw [if_pos (by exact hrec)]
          exact ⟨hends, rfl, rfl⟩
        · rw [if_neg hrec] at hends
          rw [if_neg (by exact hrec)]
          exact ⟨hends, rfl, rfl⟩
    cases args with
    | searchMemoriesArgs args =>
      exact hfinish _ _ ((h.search args.q args.limit v v' hv).map _)
    | manageMemoryArgs args =>
      exact hfinish _ _ ((managedRow_alike h _ args hv).map _)
    | searchMemoriesResult result => exact hfinish _ _ (h.refused _ hv)
    | memoryDetailResult memory => exact hfinish _ _ (h.refused _ hv)
  dumpJson := rfl
  lost := fun _ _ ⟨hv, hrest⟩ => ⟨h.lost _ _ hv, hrest⟩

end

end Tools

end MeJournal
