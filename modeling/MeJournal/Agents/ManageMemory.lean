import MeJournal.Agents.EventTime

/-!
# The arguments of `manage_memory`

`ManageMemoryArgs` of `app/agents/tools/memory.py`: its validators, and its JSON dump, which the
timeline stores and `replay_stream` validates again.

* `validate`, `ManageMemoryArgs.dump` — from the model's JSON and back to JSON.
* `validate_eq_ok` — validation, field by field; `validate_dump` — a dump is validated to the same
  arguments if the event time is read back.
* `event_time_naive_iff` — the event time has no offset, and the dump is read back, exactly if the
  model's text was no number and had one suffix at most, which the substitution takes off.
-/

namespace MeJournal

open EventTime

namespace ManageMemory

/-! ## The model -/

inductive ManageAction where
  | create
  | update
  deriving DecidableEq

/-- `ManageMemoryArgs`. -/
structure ManageMemoryArgs where
  action : ManageAction
  memoryId : Option UUID
  text : Option Text
  eventDate : Option Date
  eventTime : Option PyTime
  eventTz : Option Text
  locationLat : Option PyFloat
  locationLng : Option PyFloat
  locationLabel : Option Text
  idempotencyId : Option UUID
  deriving DecidableEq

/-- The values of `event_time` before validation, a JSON number apart. -/
inductive TimeInput where
  | null
  | str (v : Text)
  | time (t : PyTime)

/-- The arguments before validation; an absent field is null. -/
structure ArgsInput where
  action : Text
  memoryId : Option Text
  text : Option Text
  eventDate : Option Text
  eventTime : TimeInput
  eventTz : Option Text
  locationLat : Option PyFloat
  locationLng : Option PyFloat
  locationLabel : Option Text
  idempotencyId : Option Text

inductive ArgsError where
  | field (name : String)
  | model (message : String)
  deriving DecidableEq

/-- What `re` and pydantic contribute; they read the texts of UUIDs and dates. -/
structure ArgsLibrary where
  digits : RegexDigits
  uuid : Text → Option UUID
  date : Text → Option Date
  /-- The clock at a number of seconds. -/
  seconds : Text → Option TimeOfDay
  uuid_text : ∀ u, uuid (uuidText u) = some u
  date_text : ∀ d, date d.isoformat = some d

/-- A library to evaluate on. -/
def plainLibrary : ArgsLibrary where
  digits := ⟨Char.isDigit, fun _ _ => rfl⟩
  uuid := uuidOf
  date := Date.fromisoformat
  seconds := fun cs => (readInt cs).bind fun n => timeOf? (n / 3600) (n / 60 % 60) (n % 60) 0
  uuid_text := uuidOf_uuidText
  date_text := Date.fromisoformat_isoformat

/-! ## Validation -/

/-- `_strip_event_time_tz_suffix`. -/
def stripEventTimeTzSuffix (dg : RegexDigits) : TimeInput → TimeInput
  | .str v => .str (stripTz dg v)
  | .time t => .time { t with offset := none }
  | .null => .null

def actionText : ManageAction → Text
  | .create => "create".toList
  | .update => "update".toList

def actionField (t : Text) : Except ArgsError ManageAction :=
  if t = actionText .create then .ok .create
  else if t = actionText .update then .ok .update
  else .error (.field "action")

def parsedField {α : Type} (name : String) (parse : Text → Option α) :
    Option Text → Except ArgsError (Option α)
  | none => .ok none
  | some t =>
    match parse t with
    | some a => .ok (some a)
    | none => .error (.field name)

def timeField (lib : ArgsLibrary) : TimeInput → Except ArgsError (Option PyTime)
  | .null => .ok none
  | .str v => parsedField "event_time" (parseTime lib.seconds) (some v)
  | .time t => .ok (some t)

/-- `_per_action_required`. -/
def perActionRequired (args : ManageMemoryArgs) : Except ArgsError ManageMemoryArgs :=
  if args.action = .create ∧
      (args.text.isNone ∨ args.eventDate.isNone ∨ args.eventTz.isNone) then
    .error (.model "create requires text, event_date, event_tz")
  else if args.action = .update ∧ args.memoryId.isNone then
    .error (.model "update requires memory_id")
  else .ok args

/-- `ManageMemoryArgs.model_validate`, up to the first error. -/
def validate (lib : ArgsLibrary) (input : ArgsInput) : Except ArgsError ManageMemoryArgs := do
  let action ← actionField input.action
  let memoryId ← parsedField "memory_id" lib.uuid input.memoryId
  let eventDate ← parsedField "event_date" lib.date input.eventDate
  let eventTime ← timeField lib (stripEventTimeTzSuffix lib.digits input.eventTime)
  let idempotencyId ← parsedField "idempotency_id" lib.uuid input.idempotencyId
  perActionRequired
    { action, memoryId, text := input.text, eventDate, eventTime, eventTz := input.eventTz,
      locationLat := input.locationLat, locationLng := input.locationLng,
      locationLabel := input.locationLabel, idempotencyId }

/-- `model_dump(mode="json")`. -/
def ManageMemoryArgs.dump (args : ManageMemoryArgs) : ArgsInput where
  action := actionText args.action
  memoryId := args.memoryId.map uuidText
  text := args.text
  eventDate := args.eventDate.map Date.isoformat
  eventTime := match args.eventTime with
    | none => .null
    | some t => .str (dumpTime t)
  eventTz := args.eventTz
  locationLat := args.locationLat
  locationLng := args.locationLng
  locationLabel := args.locationLabel
  idempotencyId := args.idempotencyId.map uuidText

/-! ## Field by field -/

theorem bind_eq_ok {ε α β : Type} {x : Except ε α} {f : α → Except ε β} {b : β} :
    x >>= f = .ok b ↔ ∃ a, x = .ok a ∧ f a = .ok b := by
  cases x with
  | error e =>
    constructor
    · intro h
      cases h
    · rintro ⟨a, ha, -⟩
      cases ha
  | ok a =>
    constructor
    · exact fun h => ⟨a, rfl, h⟩
    · rintro ⟨_, ⟨⟩, hb⟩
      exact hb

theorem perActionRequired_eq_ok {args args' : ManageMemoryArgs} :
    perActionRequired args = .ok args' ↔ args = args' ∧ perActionRequired args = .ok args := by
  constructor
  · intro h
    have heq : args = args' := by
      unfold perActionRequired at h
      split at h
      · cases h
      split at h <;> cases h
      rfl
    exact ⟨heq, by rw [h, heq]⟩
  · rintro ⟨rfl, h⟩
    exact h

/-- **Validation, field by field.** -/
theorem validate_eq_ok {lib : ArgsLibrary} {input : ArgsInput} {args : ManageMemoryArgs} :
    validate lib input = .ok args ↔
      actionField input.action = .ok args.action ∧
      parsedField "memory_id" lib.uuid input.memoryId = .ok args.memoryId ∧
      parsedField "event_date" lib.date input.eventDate = .ok args.eventDate ∧
      timeField lib (stripEventTimeTzSuffix lib.digits input.eventTime) = .ok args.eventTime ∧
      parsedField "idempotency_id" lib.uuid input.idempotencyId = .ok args.idempotencyId ∧
      input.text = args.text ∧ input.eventTz = args.eventTz ∧
      input.locationLat = args.locationLat ∧ input.locationLng = args.locationLng ∧
      input.locationLabel = args.locationLabel ∧ perActionRequired args = .ok args := by
  constructor
  · intro h
    obtain ⟨action, haction, h⟩ := bind_eq_ok.1 h
    obtain ⟨memoryId, hmemoryId, h⟩ := bind_eq_ok.1 h
    obtain ⟨eventDate, heventDate, h⟩ := bind_eq_ok.1 h
    obtain ⟨eventTime, heventTime, h⟩ := bind_eq_ok.1 h
    obtain ⟨idempotencyId, hidempotencyId, h⟩ := bind_eq_ok.1 h
    obtain ⟨rfl, hrequired⟩ := perActionRequired_eq_ok.1 h
    exact ⟨haction, hmemoryId, heventDate, heventTime, hidempotencyId, rfl, rfl, rfl, rfl, rfl,
      hrequired⟩
  · rintro ⟨haction, hmemoryId, heventDate, heventTime, hidempotencyId, htext, htz, hlat, hlng,
      hlabel, hrequired⟩
    rw [validate, haction, hmemoryId, heventDate, heventTime, hidempotencyId, htext, htz, hlat,
      hlng, hlabel]
    exact hrequired

theorem actionField_actionText (a : ManageAction) : actionField (actionText a) = .ok a := by
  cases a <;> rfl

theorem parsedField_map {α : Type} (name : String) {parse : Text → Option α} {text : α → Text}
    (h : ∀ a, parse (text a) = some a) (x : Option α) :
    parsedField name parse (x.map text) = .ok x := by
  cases x with
  | none => rfl
  | some a => rw [Option.map_some, parsedField, h]

/-- The dump is read back if the event time is. -/
theorem validate_dump {lib : ArgsLibrary} {input : ArgsInput} {args : ManageMemoryArgs}
    (h : validate lib input = .ok args)
    (htime : ∀ t, args.eventTime = some t →
      parseTime lib.seconds (stripTz lib.digits (dumpTime t)) = some t) :
    validate lib args.dump = .ok args := by
  obtain ⟨-, -, -, -, -, -, -, -, -, -, hrequired⟩ := validate_eq_ok.1 h
  refine validate_eq_ok.2 ⟨actionField_actionText args.action, parsedField_map _ lib.uuid_text _,
    parsedField_map _ lib.date_text _, ?_, parsedField_map _ lib.uuid_text _, rfl, rfl, rfl, rfl,
    rfl, hrequired⟩
  rw [ManageMemoryArgs.dump]
  cases heventTime : args.eventTime with
  | none => rfl
  | some t =>
    dsimp only [stripEventTimeTzSuffix, timeField]
    rw [parsedField, htime t heventTime]

/-! ## The event time -/

/-- The event time of an accepted text. -/
theorem eventTime_of_validate {lib : ArgsLibrary} {input : ArgsInput} {args : ManageMemoryArgs}
    {v : Text} (hv : input.eventTime = .str v) (h : validate lib input = .ok args) :
    ∃ t, parseTime lib.seconds (stripTz lib.digits v) = some t ∧ args.eventTime = some t := by
  obtain ⟨-, -, -, htime, -⟩ := validate_eq_ok.1 h
  rw [hv] at htime
  dsimp only [stripEventTimeTzSuffix, timeField] at htime
  rw [parsedField] at htime
  cases hparse : parseTime lib.seconds (stripTz lib.digits v) with
  | none =>
    rw [hparse] at htime
    cases htime
  | some t =>
    rw [hparse] at htime
    exact ⟨t, rfl, (Except.ok.inj htime).symm⟩

/-- **The event time is naive, and the dump is read back, exactly if the text had one suffix.** -/
theorem event_time_naive_iff {lib : ArgsLibrary} {input : ArgsInput} {args : ManageMemoryArgs}
    {v : Text} (hv : input.eventTime = .str v) (h : validate lib input = .ok args) :
    ((∃ t, args.eventTime = some t ∧ t.offset = none) ∧ validate lib args.dump = .ok args) ↔
      OneSuffix lib.digits v := by
  obtain ⟨t, hparse, heventTime⟩ := eventTime_of_validate hv h
  rw [← naive_iff_oneSuffix hparse]
  constructor
  · rintro ⟨⟨t', ht', hnaive⟩, -⟩
    rw [heventTime, Option.some_inj] at ht'
    rw [ht', hnaive]
  · intro hnaive
    refine ⟨⟨t, heventTime, hnaive⟩, validate_dump h fun t' ht' => ?_⟩
    rw [heventTime, Option.some_inj] at ht'
    subst ht'
    obtain ⟨clock, offset⟩ := t
    obtain rfl : offset = none := hnaive
    rw [dumpTime, List.append_nil, stripTz_clockText, parseTime_clockText]

/-- A memory of lunch, with an event time. -/
def lunch (eventTime : String) : ArgsInput :=
  ⟨"create".toList, none, some "Lunch".toList, some sampleDate.isoformat, .str eventTime.toList,
    some "UTC".toList, none, none, none, none⟩

/-- Lunch at ten, validated. -/
def lunchArgs (offset : Option UtcOffset) : ManageMemoryArgs :=
  ⟨.create, none, some "Lunch".toList, some sampleDate, some ⟨⟨36000000000, by decide⟩, offset⟩,
    some "UTC".toList, none, none, none, none⟩

theorem event_time_naive_iff_lunch :
    ((∃ t, (lunchArgs none).eventTime = some t ∧ t.offset = none) ∧
      validate plainLibrary (lunchArgs none).dump = .ok (lunchArgs none)) ↔
        OneSuffix plainLibrary.digits "10:00Z".toList := by
  have hvalid : validate plainLibrary (lunch "10:00Z") = .ok (lunchArgs none) := by decide +kernel
  exact event_time_naive_iff rfl hvalid

/-- The lower-case `z` is not taken off, and the parser takes it. -/
theorem lunch_lowercase :
    validate plainLibrary (lunch "10:00z") = .ok (lunchArgs (some .utc)) ∧
      validate plainLibrary (lunchArgs (some .utc)).dump ≠ .ok (lunchArgs (some .utc)) := by
  decide +kernel

/-- Of two suffixes one is left. -/
example : validate plainLibrary (lunch "10:00Z+00:00") = .ok (lunchArgs (some .utc)) := by
  decide +kernel

end ManageMemory

end MeJournal
