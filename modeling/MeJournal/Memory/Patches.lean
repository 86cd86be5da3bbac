import MeJournal.Agents.ManageMemory
import MeJournal.Memory.LocalWrites
import MeJournal.Memory.RowHistory

/-!
# The two routes into `update_memory`

`MemoryPatch` of `app/schemas/memory.py` with the route `update` of `app/api/memories.py`, and
`ManageMemoryTool.run` of `app/agents/tools/memory.py`.  The route forwards the fields that the
body has (`model_fields_set`), the tool those that are not null; a column of type `TIME` keeps the
clock of an aware time.

* `MemoryPatch.kwargs`, `unsetUnprovided` — the keyword arguments of either route.
* `updateMemory_rewrites` — what every successful update leaves alone.
* `update_means` — after a successful update each column has the value its route means.
-/

namespace MeJournal

namespace Patches

open EventTime ManageMemory

variable {R : Type}

/-! ## The body of `PATCH /memories/{id}` -/

/-- A field of a JSON body. -/
inductive BodyField (α : Type) where
  | omitted
  | null
  | value (v : α)
  deriving DecidableEq

namespace BodyField

variable {α β : Type}

def map (f : α → β) : BodyField α → BodyField β
  | omitted => omitted
  | null => null
  | value v => value (f v)

/-- The field has no value or one that passes `p`. -/
def all (p : α → Bool) : BodyField α → Bool
  | value v => p v
  | _ => true

/-- `field in self.model_fields_set and getattr(self, field) is None`. -/
def isNull : BodyField α → Bool
  | null => true
  | _ => false

/-- The keyword argument of a nullable column. -/
def kwarg : BodyField α → Patch (Option α)
  | omitted => .unset
  | null => .set none
  | value v => .set (some v)

/-- The keyword argument of a column that is never null. -/
def kwargOf : (f : BodyField α) → f.isNull = false → Patch α
  | omitted, _ => .unset
  | value v, _ => .set v

end BodyField

/-- The fields of `MemoryPatch`, each of its type. -/
structure PatchBody where
  text : BodyField Text
  eventDate : BodyField Date
  eventTz : BodyField Text
  eventTime : BodyField PyTime
  locationLat : BodyField PyFloat
  locationLng : BodyField PyFloat
  locationLabel : BodyField Text

/-- `_MAX_TEXT_CHARS`. -/
def maxTextChars : Nat := 32000

/-- The fields with constraints, and whether they meet them. -/
def PatchBody.constraints (body : PatchBody) : List (String × Bool) :=
  [("text", body.text.all fun t => decide (1 ≤ t.length ∧ t.length ≤ maxTextChars)),
    ("event_tz", body.eventTz.all fun tz => decide (1 ≤ tz.length)),
    ("location_lat", body.locationLat.all (PyFloat.within 90)),
    ("location_lng", body.locationLng.all (PyFloat.within 180))]

/-- The fields that `_reject_null_for_non_nullable` reads, and whether they are null. -/
def PatchBody.nulls (body : PatchBody) : List (String × Bool) :=
  [("text", body.text.isNull), ("event_date", body.eventDate.isNull),
    ("event_tz", body.eventTz.isNull)]

/-- `_reject_null_for_non_nullable`. -/
def rejectNullForNonNullable (body : PatchBody) : Except ArgsError Unit :=
  match body.nulls.find? (·.2) with
  | some (field, _) => .error (.model (field ++ " cannot be null"))
  | none => .ok ()

/-- `MemoryPatch`. -/
structure MemoryPatch extends PatchBody where
  constrained : toPatchBody.constraints.find? (!·.2) = none
  notNull : rejectNullForNonNullable toPatchBody = .ok ()

/-- The validation of a body; the error is the first that pydantic lists. -/
def PatchBody.validate (body : PatchBody) : Except ArgsError MemoryPatch :=
  match hconstrained : body.constraints.find? (!·.2) with
  | some (field, _) => .error (.field field)
  | none =>
    match hnull : rejectNullForNonNullable body with
    | .error e => .error e
    | .ok () => .ok ⟨body, hconstrained, hnull⟩

/-- Validation changes nothing. -/
theorem PatchBody.validate_eq_ok {body : PatchBody} {patch : MemoryPatch} :
    body.validate = .ok patch ↔ patch.toPatchBody = body := by
  obtain ⟨body', hconstrained, hnull⟩ := patch
  unfold PatchBody.validate
  constructor
  · intro h
    split at h
    · cases h
    split at h
    · cases h
    · cases h
      rfl
  · rintro rfl
    split
    · rename_i hfield
      rw [hconstrained] at hfield
      cases hfield
    split
    · rename_i he
      rw [hnull] at he
      cases he
    · rfl

theorem nulls_of_not_rejected {body : PatchBody} (h : rejectNullForNonNullable body = .ok ()) :
    ∀ p ∈ body.nulls, p.2 = false := by
  unfold rejectNullForNonNullable at h
  split at h
  · cases h
  · rename_i hnone
    exact fun p hp => Bool.eq_false_of_not_eq_true (List.find?_eq_none.1 hnone p hp)

namespace MemoryPatch

variable (patch : MemoryPatch)

theorem text_notNull : patch.text.isNull = false :=
  nulls_of_not_rejected patch.notNull ("text", _) (.head _)

theorem eventDate_notNull : patch.eventDate.isNull = false :=
  nulls_of_not_rejected patch.notNull ("event_date", _) (.tail _ (.head _))

theorem eventTz_notNull : patch.eventTz.isNull = false :=
  nulls_of_not_rejected patch.notNull ("event_tz", _) (.tail _ (.tail _ (.head _)))

end MemoryPatch

/-! ## The keyword arguments -/

/-- The keyword arguments of `update_memory`, as the routes pass them. -/
structure UpdateKwargs where
  text : Patch Text
  eventDate : Patch Date
  eventTime : Patch (Option PyTime)
  eventTz : Patch Text
  locationLat : Patch (Option PyFloat)
  locationLng : Patch (Option PyFloat)
  locationLabel : Patch (Option Text)

def mapPatch {α β : Type} (f : α → β) : Patch α → Patch β
  | .unset => .unset
  | .set v => .set (f v)

/-- The values that the statements get: a `TIME` column takes the clock of a time. -/
def UpdateKwargs.columns (kwargs : UpdateKwargs) : UpdateArgs where
  text := kwargs.text
  eventDate := kwargs.eventDate
  eventTime := mapPatch (Option.map PyTime.clock) kwargs.eventTime
  eventTz := kwargs.eventTz
  locationLat := kwargs.locationLat
  locationLng := kwargs.locationLng
  locationLabel := kwargs.locationLabel

/-- `{field: getattr(body, field) for field in body.model_fields_set}`. -/
def MemoryPatch.kwargs (patch : MemoryPatch) : UpdateKwargs where
  text := patch.text.kwargOf patch.text_notNull
  eventDate := patch.eventDate.kwargOf patch.eventDate_notNull
  eventTime := patch.eventTime.kwarg
  eventTz := patch.eventTz.kwargOf patch.eventTz_notNull
  locationLat := patch.locationLat.kwarg
  locationLng := patch.locationLng.kwarg
  locationLabel := patch.locationLabel.kwarg

/-- `_UNSET if v is None else v`, for a column that is never null. -/
def unsetIfNone {α : Type} : Option α → Patch α
  | none => .unset
  | some v => .set v

/-- The same for a nullable column. -/
def unsetIfNone' {α : Type} : Option α → Patch (Option α)
  | none => .unset
  | some v => .set (some v)

/-- `_unset_unprovided`. -/
def unsetUnprovided (args : ManageMemoryArgs) : UpdateKwargs where
  text := unsetIfNone args.text
  eventDate := unsetIfNone args.eventDate
  eventTime := unsetIfNone' args.eventTime
  eventTz := unsetIfNone args.eventTz
  locationLat := unsetIfNone' args.locationLat
  locationLng := unsetIfNone' args.locationLng
  locationLabel := unsetIfNone' args.locationLabel

/-! ## The routes -/

inductive RouteError where
  | http (status : Nat) (detail : Text)
  | unhandled (e : ServiceError)
  deriving DecidableEq

/-- The `except` clauses of the route. -/
def routeError : ServiceError → RouteError
  | .notFound _ => .http 404 "memory not found".toList
  | .duplicate message => .http 409 message
  | .validation message => .http 422 message
  | e => .unhandled e

/-- `update`. -/
def update (pf : Platform) (client : MemoryClient R) (env : Env) (userId memoryId : UUID)
    (body : MemoryPatch) (w : World R) : Except RouteError Memory × World R :=
  let (reply, w') := updateMemory pf client env userId memoryId body.kwargs.columns w
  (reply.mapError routeError, w')

def assertionError : PyExc where
  cls := "AssertionError"
  bases := ["Exception"]
  message := []

/-- `ManageMemoryTool.run`. -/
def manageMemory (pf : Platform) (client : MemoryClient R) (env : Env) (userId : UUID)
    (args : ManageMemoryArgs) (w : World R) : Except ServiceError Memory × World R :=
  match args.action with
  | .create =>
    match args.text, args.eventDate, args.eventTz with
    | some text, some eventDate, some eventTz =>
      createMemory pf client env userId
        { text, eventDate, eventTz
          eventTime := args.eventTime.map PyTime.clock
          locationLat := args.locationLat
          locationLng := args.locationLng
          locationLabel := args.locationLabel
          idempotencyId := args.idempotencyId } w
    | _, _, _ => (.error (.raised assertionError), w)
  | .update =>
    match args.memoryId with
    | some memoryId =>
      updateMemory pf client env userId memoryId (unsetUnprovided args).columns w
    | none => (.error (.raised assertionError), w)

/-! ## What the routes mean -/

/-- The `time` that the ORM reads from the column. -/
def eventTimeOf (m : Memory) : Option PyTime := m.eventTime.map fun clock => ⟨clock, none⟩

/-- The time without its offset. -/
def naive (t : PyTime) : PyTime := { t with offset := none }

/-- An omitted field is unchanged, null clears, a value is stored. -/
def BodyField.Means {α : Type} (f : BodyField α) (old new : Option α) : Prop :=
  match f with
  | omitted => new = old
  | null => new = none
  | value v => new = some v

/-- Null leaves the field unchanged, a value is stored. -/
def ArgMeans {α : Type} (arg old new : Option α) : Prop :=
  match arg with
  | none => new = old
  | some v => new = some v

/-- What a body means for a row, when an event time `t` is to be stored as `stored t`. -/
structure PatchMeans (stored : PyTime → PyTime) (body : PatchBody) (old new : Memory) : Prop where
  text : (body.text.map pyStrip).Means (some old.text) (some new.text)
  eventDate : body.eventDate.Means (some old.eventDate) (some new.eventDate)
  eventTz : body.eventTz.Means (some old.eventTz) (some new.eventTz)
  eventTime : (body.eventTime.map stored).Means (eventTimeOf old) (eventTimeOf new)
  locationLat : body.locationLat.Means old.locationLat new.locationLat
  locationLng : body.locationLng.Means old.locationLng new.locationLng
  locationLabel : body.locationLabel.Means old.locationLabel new.locationLabel

/-- What the arguments of the tool mean. -/
structure ToolMeans (stored : PyTime → PyTime) (args : ManageMemoryArgs) (old new : Memory) :
    Prop where
  text : ArgMeans (args.text.map pyStrip) (some old.text) (some new.text)
  eventDate : ArgMeans args.eventDate (some old.eventDate) (some new.eventDate)
  eventTz : ArgMeans args.eventTz (some old.eventTz) (some new.eventTz)
  eventTime : ArgMeans (args.eventTime.map stored) (eventTimeOf old) (eventTimeOf new)
  locationLat : ArgMeans args.locationLat old.locationLat new.locationLat
  locationLng : ArgMeans args.locationLng old.locationLng new.locationLng
  locationLabel : ArgMeans args.locationLabel old.locationLabel new.locationLabel

/-- An update of the live row `old` of the user that left `new`. -/
structure Rewrites (pf : Platform) (userId memoryId : UUID) (w w' : World R) (old new : Memory) :
    Prop where
  found : findOwned w.memories userId memoryId = some old
  live : old.live
  stored : findOwned w'.memories userId memoryId = some new
  hash_changes : new.contentHash ≠ old.contentHash ↔
    new.text ≠ old.text ∧ canonicalHash pf new.text ≠ old.contentHash
  hash_of_text : new.text ≠ old.text → new.contentHash = canonicalHash pf new.text
  id : new.id = old.id
  userId : new.userId = old.userId
  createdAt : new.createdAt = old.createdAt
  deletedAt : new.deletedAt = old.deletedAt
  externalId : ∀ docId, old.externalId = some docId → new.externalId = some docId

/-! ## A successful update -/

/-- The user's columns after a patch. -/
structure Patched (args : UpdateArgs) (old new : Memory) : Prop where
  text : new.text = (mapPatch pyStrip args.text).apply old.text
  eventDate : new.eventDate = args.eventDate.apply old.eventDate
  eventTime : new.eventTime = args.eventTime.apply old.eventTime
  eventTz : new.eventTz = args.eventTz.apply old.eventTz
  locationLat : new.locationLat = args.locationLat.apply old.locationLat
  locationLng : new.locationLng = args.locationLng.apply old.locationLng
  locationLabel : new.locationLabel = args.locationLabel.apply old.locationLabel

/-- The text branch stores the stripped text. -/
theorem patchText_ok {pf : Platform} {row row' : Memory} {text : Patch Text} {changed : Bool}
    (h : patchText pf row text = .ok (row', changed)) :
    row'.text = (mapPatch pyStrip text).apply row.text := by
  obtain ⟨rfl, -, hsame⟩ | ⟨new, rfl, -, -, -, rfl⟩ := patchText_cases h
  · cases text with
    | unset => rfl
    | set new => exact (hsame new rfl).symm
  · rfl

theorem applyPatch_patched {pf : Platform} {row row' : Memory} {args : UpdateArgs}
    {changed : Bool} (h : applyPatch pf row args = .ok (row', changed)) :
    Patched args row row' := by
  obtain ⟨text, hash, heq, -, -⟩ := applyPatch_ok h
  refine ⟨?_, by rw [heq]; rfl, by rw [heq]; rfl, by rw [heq]; rfl, by rw [heq]; rfl,
    by rw [heq]; rfl, by rw [heq]; rfl⟩
  obtain ⟨-, row₁, htext, rfl⟩ := applyPatch_cases h
  exact (patchText_ok htext : row₁.text = _)

/-- What an accepted patch does to the hash. -/
theorem applyPatch_hash {pf : Platform} {row row' : Memory} {args : UpdateArgs} {changed : Bool}
    (h : applyPatch pf row args = .ok (row', changed)) :
    row'.contentHash = if row'.text = row.text then row.contentHash
      else canonicalHash pf row'.text := by
  obtain ⟨text, hash, rfl, hsame, hnew⟩ := applyPatch_ok h
  cases changed with
  | false =>
    obtain ⟨rfl, rfl⟩ := hsame rfl
    exact (if_pos rfl).symm
  | true =>
    obtain ⟨hne, rfl⟩ := hnew rfl
    exact (if_neg hne).symm

theorem applyPatch_deletedAt {pf : Platform} {row row' : Memory} {args : UpdateArgs}
    {changed : Bool} (h : applyPatch pf row args = .ok (row', changed)) :
    row'.deletedAt = row.deletedAt := by
  obtain ⟨text, hash, rfl, -, -⟩ := applyPatch_ok h
  rfl

/-- A row up to its `external_*` columns. -/
theorem eq_of_erase {m m' : Memory} (h : m.erase = m'.erase) :
    m = { m' with
      externalId := m.externalId, externalStatus := m.externalStatus,
      externalSyncedAt := m.externalSyncedAt, externalError := m.externalError } := by
  cases m
  cases m'
  simp only [Memory.erase, Memory.mk.injEq] at h
  simp [h]

/-- The row that `update_memory` commits and returns. -/
theorem updateMemory_ok {pf : Platform} {client : MemoryClient R} {env : Env}
    {userId memoryId : UUID} {args : UpdateArgs} {w w' : World R} {new : Memory}
    (h : updateMemory pf client env userId memoryId args w = (.ok new, w')) :
    ∃ old row changed, findOwned w.memories userId memoryId = some old ∧ old.live ∧
      applyPatch pf old args = .ok (row, changed) ∧
      new = (pushRow client env row changed w).1 ∧
      w'.memories = (w.memories.put row).put new := by
  unfold updateMemory at h
  split at h
  · cases h
  rename_i old hfind
  obtain ⟨hfound, hlive⟩ := Option.filter_eq_some_iff.1 hfind
  split at h
  · cases h
  rename_i row changed hpatch
  split at h
  · cases h
  rename_i memories hflush
  cases h
  exact ⟨old, row, changed, hfound, by simpa using hlive, hpatch, rfl,
    by rw [flush_ok hflush]⟩

/-- **What every successful update does to the row.** -/
theorem updateMemory_rewrites {pf : Platform} {client : MemoryClient R} {env : Env}
    {userId memoryId : UUID} {args : UpdateArgs} {w w' : World R} {new : Memory}
    (h : updateMemory pf client env userId memoryId args w = (.ok new, w')) :
    ∃ old, Rewrites pf userId memoryId w w' old new ∧ Patched args old new := by
  obtain ⟨old, row, changed, hfound, hlive, hpatch, rfl, hmemories⟩ := updateMemory_ok h
  obtain ⟨hmem, rfl, rfl⟩ := findOwned_eq_some.1 hfound
  have hbecomes : old.Becomes (pushRow client env row changed w).1 :=
    (applyPatch_becomes hpatch).trans (pushRow_becomes client env row changed w)
  have heq := eq_of_erase (pushRow_erase client env row changed w)
  generalize (pushRow client env row changed w).1 = new at heq hbecomes hmemories ⊢
  have htext : new.text = row.text := by rw [heq]
  have hhash : new.contentHash =
      if new.text = old.text then old.contentHash else canonicalHash pf new.text := by
    rw [htext, ← applyPatch_hash hpatch, heq]
  have hdeleted : new.deletedAt = old.deletedAt := by
    rw [← applyPatch_deletedAt hpatch, heq]
  have hid : row.id = old.id := (applyPatch_becomes hpatch).id
  have hstored : new ∈ w'.memories.rows := by
    rw [hmemories]
    exact Table.mem_put_self (Table.mem_put_self hmem hid.symm) (hid.trans hbecomes.id.symm)
  refine ⟨old, ⟨hfound, hlive, ?_, ?_, ?_, hbecomes.id, hbecomes.userId,
    hbecomes.createdAt, hdeleted, hbecomes.externalId⟩, ?_⟩
  · exact findOwned_eq_some.2 ⟨hstored, hbecomes.id, hbecomes.userId⟩
  · rw [hhash]
    split
    · rename_i hsame
      simp [hsame]
    · rename_i hne
      simp [hne]
  · intro hne
    rw [hhash, if_neg hne]
  · obtain ⟨htext', hdate, htime, htz, hlat, hlng, hlabel⟩ := applyPatch_patched hpatch
    rw [heq]
    exact ⟨htext', hdate, htime, htz, hlat, hlng, hlabel⟩

/-! ## The meaning of the keyword arguments -/

theorem BodyField.kwarg_means {α : Type} (f : BodyField α) (old : Option α) :
    f.Means old (f.kwarg.apply old) := by
  cases f <;> rfl

theorem BodyField.kwargOf_means {α : Type} (f : BodyField α) (h : f.isNull = false) (old : α) :
    f.Means (some old) (some ((f.kwargOf h).apply old)) := by
  cases f with
  | omitted => rfl
  | null => cases h
  | value v => rfl

theorem unsetIfNone_means {α : Type} (arg : Option α) (old : α) :
    ArgMeans arg (some old) (some ((unsetIfNone arg).apply old)) := by
  cases arg <;> rfl

theorem unsetIfNone'_means {α : Type} (arg old : Option α) :
    ArgMeans arg old ((unsetIfNone' arg).apply old) := by
  cases arg <;> rfl

theorem mapPatch_kwargOf {α β : Type} (g : α → β) (f : BodyField α) (h : f.isNull = false)
    (old : β) : (f.map g).Means (some old) (some ((mapPatch g (f.kwargOf h)).apply old)) := by
  cases f with
  | omitted => rfl
  | null => cases h
  | value v => rfl

theorem mapPatch_unsetIfNone {α β : Type} (g : α → β) (arg : Option α) (old : β) :
    ArgMeans (arg.map g) (some old) (some ((mapPatch g (unsetIfNone arg)).apply old)) := by
  cases arg <;> rfl

/-- The column keeps the clock, and the ORM reads a time without offset. -/
theorem eventTime_kwarg (f : BodyField PyTime) (old : Option TimeOfDay) :
    (f.map naive).Means (old.map fun clock => ⟨clock, none⟩)
      (((mapPatch (Option.map PyTime.clock) f.kwarg).apply old).map
        fun clock => ⟨clock, none⟩) := by
  cases f <;> rfl

theorem eventTime_unsetIfNone (arg : Option PyTime) (old : Option TimeOfDay) :
    ArgMeans (arg.map naive) (old.map fun clock => ⟨clock, none⟩)
      (((mapPatch (Option.map PyTime.clock) (unsetIfNone' arg)).apply old).map
        fun clock => ⟨clock, none⟩) := by
  cases arg <;> rfl

theorem patchMeans_of_patched {body : MemoryPatch} {old new : Memory}
    (h : Patched body.kwargs.columns old new) : PatchMeans naive body.toPatchBody old new where
  text := by rw [h.text]; exact mapPatch_kwargOf pyStrip body.text body.text_notNull old.text
  eventDate := by rw [h.eventDate]; exact body.eventDate.kwargOf_means body.eventDate_notNull _
  eventTz := by rw [h.eventTz]; exact body.eventTz.kwargOf_means body.eventTz_notNull _
  eventTime := by
    rw [eventTimeOf, eventTimeOf, h.eventTime]
    exact eventTime_kwarg body.eventTime old.eventTime
  locationLat := by rw [h.locationLat]; exact body.locationLat.kwarg_means _
  locationLng := by rw [h.locationLng]; exact body.locationLng.kwarg_means _
  locationLabel := by rw [h.locationLabel]; exact body.locationLabel.kwarg_means _

theorem toolMeans_of_patched {args : ManageMemoryArgs} {old new : Memory}
    (h : Patched (unsetUnprovided args).columns old new) : ToolMeans naive args old new where
  text := by rw [h.text]; exact mapPatch_unsetIfNone pyStrip args.text old.text
  eventDate := by rw [h.eventDate]; exact unsetIfNone_means args.eventDate _
  eventTz := by rw [h.eventTz]; exact unsetIfNone_means args.eventTz _
  eventTime := by
    rw [eventTimeOf, eventTimeOf, h.eventTime]
    exact eventTime_unsetIfNone args.eventTime old.eventTime
  locationLat := by rw [h.locationLat]; exact unsetIfNone'_means args.locationLat _
  locationLng := by rw [h.locationLng]; exact unsetIfNone'_means args.locationLng _
  locationLabel := by rw [h.locationLabel]; exact unsetIfNone'_means args.locationLabel _

/-! ## Both routes -/

theorem update_ok {pf : Platform} {client : MemoryClient R} {env : Env} {userId memoryId : UUID}
    {body : MemoryPatch} {w w' : World R} {new : Memory}
    (h : update pf client env userId memoryId body w = (.ok new, w')) :
    updateMemory pf client env userId memoryId body.kwargs.columns w = (.ok new, w') := by
  unfold update at h
  split at h
  rename_i reply w₁ hreply
  rw [hreply]
  cases reply with
  | error e => cases h
  | ok m =>
    cases h
    rfl

/-- An accepted update of the tool names its memory. -/
theorem manageMemory_update {pf : Platform} {client : MemoryClient R} {env : Env}
    {userId : UUID} {args : ManageMemoryArgs} {w w' : World R} {new : Memory}
    (haction : args.action = .update)
    (h : manageMemory pf client env userId args w = (.ok new, w')) :
    ∃ memoryId, args.memoryId = some memoryId ∧
      updateMemory pf client env userId memoryId (unsetUnprovided args).columns w =
        (.ok new, w') := by
  unfold manageMemory at h
  rw [haction] at h
  split at h
  · rename_i heq
    cases heq
  split at h
  · rename_i memoryId hid
    exact ⟨memoryId, hid, h⟩
  · cases h

/-- **What a successful update through either route leaves**: each column of the user has the value
that the route means, an event time without its offset; the hash changes with the text. -/
theorem update_means (pf : Platform) (client : MemoryClient R) (env : Env) (userId : UUID)
    (w : World R) :
    (∀ memoryId (body : MemoryPatch) new w',
      update pf client env userId memoryId body w = (.ok new, w') →
        ∃ old, Rewrites pf userId memoryId w w' old new ∧
          PatchMeans naive body.toPatchBody old new) ∧
    ∀ (args : ManageMemoryArgs) new w', args.action = .update →
      manageMemory pf client env userId args w = (.ok new, w') →
        ∃ memoryId old, args.memoryId = some memoryId ∧
          Rewrites pf userId memoryId w w' old new ∧ ToolMeans naive args old new := by
  constructor
  · intro memoryId body new w' h
    obtain ⟨old, hrewrites, hpatched⟩ := updateMemory_rewrites (update_ok h)
    exact ⟨old, hrewrites, patchMeans_of_patched hpatched⟩
  · intro args new w' haction h
    obtain ⟨memoryId, hid, hupdate⟩ := manageMemory_update haction h
    obtain ⟨old, hrewrites, hpatched⟩ := updateMemory_rewrites hupdate
    exact ⟨memoryId, old, hid, hrewrites, toolMeans_of_patched hpatched⟩

def noon : TimeOfDay := ⟨43200000000, by decide⟩

/-- The row of a memory recorded without a time. -/
def walkWorld : World Unit :=
  (createMemory utcPlatform offline ⟨1, 1, 1⟩ 7
    ⟨"walked".toList, sampleDate, "UTC".toList, none, none, none, some "park".toList, none⟩
    (initialWorld ())).2

/-- Noon in the given offset, and no label. -/
def noonBody (offset : Option UtcOffset) : MemoryPatch where
  text := .omitted
  eventDate := .omitted
  eventTz := .omitted
  eventTime := .value ⟨noon, offset⟩
  locationLat := .omitted
  locationLng := .omitted
  locationLabel := .null
  constrained := rfl
  notNull := rfl

/-- A new text and a null label. -/
def strollArgs : ManageMemoryArgs :=
  ⟨.update, some 1, some " strolled ".toList, none, none, none, none, none, none, none⟩

/-- The row of `walkWorld` with the given columns. -/
def walkRow (text : Text) (eventTime : Option TimeOfDay) (locationLabel : Option Text) : Memory :=
  { newRow utcPlatform ⟨1, 1, 1⟩ 7
      ⟨text, sampleDate, "UTC".toList, eventTime, none, none, locationLabel, none⟩ text with
    externalError := some MemoryClientError.base.name }

/-- The theorem at a time without offset, and at a new text. -/
theorem update_means_walk :
    (∃ old, Rewrites utcPlatform 7 1 walkWorld
        (update utcPlatform offline ⟨2, 2, 2⟩ 7 1 (noonBody none) walkWorld).2 old
        (walkRow "walked".toList (some noon) none) ∧
      PatchMeans naive (noonBody none).toPatchBody old
        (walkRow "walked".toList (some noon) none)) ∧
    ∃ memoryId old, strollArgs.memoryId = some memoryId ∧
      Rewrites utcPlatform 7 memoryId walkWorld
        (manageMemory utcPlatform offline ⟨2, 2, 2⟩ 7 strollArgs walkWorld).2 old
        (walkRow "strolled".toList none (some "park".toList)) ∧
      ToolMeans naive strollArgs old (walkRow "strolled".toList none (some "park".toList)) :=
  ⟨(update_means utcPlatform offline ⟨2, 2, 2⟩ 7 walkWorld).1 1 (noonBody none) _ _
      (Prod.ext (by decide +kernel) rfl),
    (update_means utcPlatform offline ⟨2, 2, 2⟩ 7 walkWorld).2 strollArgs _ _ rfl
      (Prod.ext (by decide +kernel) rfl)⟩

/-- The offset of an accepted event time is not stored. -/
theorem noon_offset_dropped :
    ¬ ∀ new w', update utcPlatform offline ⟨2, 2, 2⟩ 7 1 (noonBody (some ⟨7200000000, by decide⟩))
        walkWorld = (.ok new, w') →
      ∃ old, Rewrites utcPlatform 7 1 walkWorld w' old new ∧
        PatchMeans id (noonBody (some ⟨7200000000, by decide⟩)).toPatchBody old new := by
  intro h
  obtain ⟨old, -, hmeans⟩ := h (walkRow "walked".toList (some noon) none) _
    (Prod.ext (by decide +kernel) rfl)
  cases hmeans.eventTime

end Patches

end MeJournal
