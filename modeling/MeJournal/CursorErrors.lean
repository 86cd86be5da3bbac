import MeJournal.Cursors

/-!
# What reading a cursor raises

The two decoders once more, with the exceptions of the library calls they make.  To a text that one
of the encoders writes a call answers what the standard library's format says (`Base64.decode`,
`Json.loads`, …); to any other text it may have an answer of its own, and what it raises is a
`ValueError`.

* `CursorLibrary` — such calls; `CursorLibrary.decodeCursor`, `CursorLibrary.decodeSessionCursor`
  — the decoders with their `try` blocks.
* `decodeCursor_strict`, `decodeSessionCursor_strict` — over calls with no answers of their own they
  are `decodeCursor` and `decodeSessionCursor` of `Cursors`.
* `decode_outcome` — they raise nothing but their own refusals.
* `codecs_sound` — round trips, no shared cursors, no other exceptions.
* `halfSecond_offset` — the library reads an offset of half a second as UTC.
-/

namespace MeJournal

namespace CursorErrors

/-! ## Library calls -/

/-- A call that answers a `written` text as `known` does, and where it raises, raises a
`ValueError`. -/
structure Call {α β : Type} (known : α → Option β) (written : α → Prop) where
  run : α → Except PyExc β
  known_ok : ∀ a b, written a → known a = some b → run a = .ok b
  errors : ∀ a e, run a = .error e → e.isinstance ["ValueError"] = true

/-- What both encoders write: the version, the field `key` and the id. -/
def cursorPayload (key field : Text) (id : UUID) : List (Text × Json.Scalar) :=
  [("v".toList, .num cursorVersion), (key, .str field), ("id".toList, .str (uuidText id))]

structure CursorLibrary (cp : CursorPlatform) where
  urlsafeB64decode : Call Base64.decode fun text => ∃ raw, text = Base64.encode raw
  loads : Call (Json.loads cp.toFloat) fun raw =>
    ∃ key field id, raw = Json.asciiBytes (Json.dumps (cursorPayload key field id))
  date : Call Date.fromisoformat fun text => ∃ d : Date, text = d.isoformat
  datetime : Call DateTime.fromisoformat fun text =>
    ∃ dt : DateTime, dt.WholeOffset ∧ text = dt.isoformat
  uuid : Call uuidOf fun text => ∃ id, text = uuidText id

def strictError : PyExc := ⟨"ValueError", ["Exception"], []⟩

/-- The call with no answers of its own. -/
def Call.strict {α β : Type} (known : α → Option β) (written : α → Prop) : Call known written where
  run a := match known a with
    | some b => .ok b
    | none => .error strictError
  known_ok a b _ h := by rw [h]
  errors a e h := by
    split at h <;> cases h
    rfl

def strictLibrary (cp : CursorPlatform) : CursorLibrary cp where
  urlsafeB64decode := .strict _ _
  loads := .strict _ _
  date := .strict _ _
  datetime := .strict _ _
  uuid := .strict _ _

/-- `raise exc` in the handler of `except classes`. -/
def orRaise {α : Type} (classes : List String) (exc : PyExc) : Except PyExc α → Except PyExc α
  | .ok a => .ok a
  | .error e => .error (if e.isinstance classes then exc else e)

/-- `MemoryValidationError(message)`. -/
def memoryValidationError (message : Text) : PyExc where
  cls := "MemoryValidationError"
  bases := ["ValueError", "Exception"]
  message := message

variable {cp : CursorPlatform} (lib : CursorLibrary cp)

/-! ## The decoders -/

/-- The first `try` block of both decoders. -/
def CursorLibrary.payload (cursor : Text) : Except PyExc (Json.Value PyFloat) := do
  let raw ← lib.urlsafeB64decode.run (Base64.repad cursor)
  lib.loads.run raw

/-- The second one: the two fields, parsed. -/
def CursorLibrary.fields {α : Type} {known : Text → Option α} {written : Text → Prop}
    (call : Call known written) (field rid : Text) : Except PyExc (α × UUID) := do
  let decodedField ← call.run field
  let decodedId ← lib.uuid.run rid
  return (decodedField, decodedId)

/-- What a decoder raises, step by step. -/
structure Refusals where
  malformed : PyExc
  version : Option (Json.Value PyFloat) → PyExc
  missing : PyExc
  unparsed : PyExc

/-- Both decoders: `key` names the field beside the id, `call` parses it. -/
def CursorLibrary.decode {α : Type} {known : Text → Option α} {written : Text → Prop} (key : Text)
    (call : Call known written) (refuse : Refusals) (cursor : Text) : Except PyExc (α × UUID) :=
  match orRaise ["ValueError", "TypeError", "JSONDecodeError"] refuse.malformed
    (lib.payload cursor) with
  | .error e => .error e
  | .ok (.obj members) =>
    let version := Json.get members "v".toList
    if !isCurrentVersion version then .error (refuse.version version)
    else match Json.get members key, Json.get members "id".toList with
      | some (.str field), some (.str rid) =>
        orRaise ["ValueError"] refuse.unparsed (lib.fields call field rid)
      | _, _ => .error refuse.missing
  | .ok _ => .error refuse.malformed

def memoryRefusals (cp : CursorPlatform) : Refusals where
  malformed := memoryValidationError "malformed cursor".toList
  version := fun v =>
    memoryValidationError ("unsupported cursor version: ".toList ++ cp.reprValue v)
  missing := memoryValidationError "cursor missing fields".toList
  unparsed := memoryValidationError "cursor field could not be parsed".toList

def sessionRefusals : Refusals where
  malformed := malformedCursor
  version := fun _ => malformedCursor
  missing := malformedCursor
  unparsed := malformedCursor

/-- `decode_cursor`. -/
def CursorLibrary.decodeCursor : Text → Except PyExc (Date × UUID) :=
  lib.decode "ed".toList lib.date (memoryRefusals cp)

/-- `_decode_cursor` of the sessions service. -/
def CursorLibrary.decodeSessionCursor : Text → Except PyExc (DateTime × UUID) :=
  lib.decode "ts".toList lib.datetime sessionRefusals

/-! ## What they raise -/

@[simp] theorem orRaise_ok {α : Type} {classes : List String} {exc : PyExc} {a : α} :
    orRaise classes exc (.ok a) = .ok a := rfl

/-- A block that only raises what its handler catches. -/
theorem orRaise_outcome {α : Type} {classes : List String} (exc : PyExc) {block : Except PyExc α}
    (h : ∀ e, block = .error e → e.isinstance classes = true) :
    (∃ a, orRaise classes exc block = .ok a) ∨ orRaise classes exc block = .error exc := by
  cases block with
  | ok a => exact Or.inl ⟨a, rfl⟩
  | error e => exact Or.inr (by rw [orRaise, if_pos (h e rfl)])

/-- What two calls in a row raise. -/
theorem bind_errors {α β : Type} {P : PyExc → Prop} {x : Except PyExc α} {f : α → Except PyExc β}
    (hx : ∀ e, x = .error e → P e) (hf : ∀ a e, f a = .error e → P e) :
    ∀ e, x >>= f = .error e → P e := by
  intro e h
  cases x with
  | ok a => exact hf a e h
  | error e' =>
    cases h
    exact hx e rfl

theorem isinstance_caught {e : PyExc} (h : e.isinstance ["ValueError"] = true) :
    e.isinstance ["ValueError", "TypeError", "JSONDecodeError"] = true := by
  simp only [PyExc.isinstance, List.any_cons, List.any_nil, Bool.or_false] at h ⊢
  rw [h]
  rfl

theorem payload_errors (cursor : Text) (e : PyExc) (h : lib.payload cursor = .error e) :
    e.isinstance ["ValueError", "TypeError", "JSONDecodeError"] = true :=
  isinstance_caught
    (bind_errors (lib.urlsafeB64decode.errors _) (fun raw => lib.loads.errors raw) e h)

variable {α : Type} {known : Text → Option α} {written : Text → Prop} {key : Text}
  {call : Call known written} {refuse : Refusals}

theorem fields_errors (call : Call known written) (field rid : Text) :
    ∀ e, lib.fields call field rid = .error e → e.isinstance ["ValueError"] = true :=
  bind_errors (call.errors field)
    fun _ => bind_errors (lib.uuid.errors rid) fun _ _ h => by cases h

/-- **A decoder returns a pair or raises one of its own errors.** -/
theorem decode_outcome (refuse : Refusals) {P : PyExc → Prop} (hmalformed : P refuse.malformed)
    (hversion : ∀ v, P (refuse.version v)) (hmissing : P refuse.missing)
    (hunparsed : P refuse.unparsed) (cursor : Text) :
    (∃ p, lib.decode key call refuse cursor = .ok p) ∨
      ∃ e, P e ∧ lib.decode key call refuse cursor = .error e := by
  unfold CursorLibrary.decode
  rcases orRaise_outcome refuse.malformed (payload_errors lib cursor) with ⟨v, hv⟩ | herror
  · rw [hv]
    cases v with
    | obj members =>
      dsimp only
      split
      · exact Or.inr ⟨_, hversion _, rfl⟩
      split
      · rename_i field rid hfield hrid
        have hfields := orRaise_outcome refuse.unparsed (fields_errors lib call field rid)
        exact hfields.imp_right fun herror => ⟨_, hunparsed, herror⟩
      · exact Or.inr ⟨_, hmissing, rfl⟩
    | null => exact Or.inr ⟨_, hmalformed, rfl⟩
    | bool _ => exact Or.inr ⟨_, hmalformed, rfl⟩
    | int _ => exact Or.inr ⟨_, hmalformed, rfl⟩
    | float _ => exact Or.inr ⟨_, hmalformed, rfl⟩
    | str _ => exact Or.inr ⟨_, hmalformed, rfl⟩
    | arr _ => exact Or.inr ⟨_, hmalformed, rfl⟩
  · rw [herror]
    exact Or.inr ⟨_, hmalformed, rfl⟩

/-! ## What they read -/

/-- A written payload is decoded, and parsed. -/
theorem payload_written (key field : Text) (id : UUID) :
    lib.payload (encodePayload (cursorPayload key field id)) =
      .ok (.obj ((cursorPayload key field id).map fun m => (m.1, m.2.value))) := by
  rw [CursorLibrary.payload, encodePayload, Base64.repad_unpad_encode,
    lib.urlsafeB64decode.known_ok _ _ ⟨_, rfl⟩ (Base64.decode_encode _)]
  exact lib.loads.known_ok _ _ ⟨key, field, id, rfl⟩ (Json.loads_dumps _ _)

/-- A decoder on a written payload. -/
theorem decode_written {key' field : Text} {id : UUID}
    (hversion : isCurrentVersion (Json.get (F := PyFloat)
      ((cursorPayload key' field id).map fun m => (m.1, m.2.value)) "v".toList) = true) :
    lib.decode key call refuse (encodePayload (cursorPayload key' field id)) =
      match Json.get (F := PyFloat)
          ((cursorPayload key' field id).map fun m => (m.1, m.2.value)) key,
        Json.get (F := PyFloat) ((cursorPayload key' field id).map fun m => (m.1, m.2.value))
          "id".toList with
      | some (.str field), some (.str rid) =>
        orRaise ["ValueError"] refuse.unparsed (lib.fields call field rid)
      | _, _ => .error refuse.missing := by
  rw [CursorLibrary.decode, payload_written, orRaise_ok]
  simp only [hversion, Bool.not_true, Bool.false_eq_true, if_false]

variable (call) in
theorem fields_written {field : Text} {a : α} (id : UUID) (hwritten : written field)
    (hfield : known field = some a) : lib.fields call field (uuidText id) = .ok (a, id) := by
  rw [CursorLibrary.fields, call.known_ok _ _ hwritten hfield,
    lib.uuid.known_ok _ _ ⟨id, rfl⟩ (uuidOf_uuidText id)]
  rfl

/-- **A date and an id are read back.** -/
theorem decodeCursor_written (d : Date) (id : UUID) :
    lib.decodeCursor (encodeCursor d id) = .ok (d, id) := by
  have hfields := fields_written lib lib.date id ⟨d, rfl⟩ (Date.fromisoformat_isoformat d)
  refine (decode_written lib rfl).trans ?_
  show orRaise _ _ (lib.fields lib.date d.isoformat (uuidText id)) = _
  rw [hfields, orRaise_ok]

/-- **A timestamp and an id are read back.** -/
theorem decodeSessionCursor_written {ts : DateTime} (hts : ts.WholeOffset) (id : UUID) :
    lib.decodeSessionCursor (encodeSessionCursor ts id) = .ok (ts, id) := by
  have hfields := fields_written lib lib.datetime id ⟨ts, hts, rfl⟩
    ((DateTime.fromisoformat_isoformat ts).2 hts)
  refine (decode_written lib rfl).trans ?_
  show orRaise _ _ (lib.fields lib.datetime ts.isoformat (uuidText id)) = _
  rw [hfields, orRaise_ok]

/-! ## Calls with no answers of their own -/

theorem payload_strict (cp : CursorPlatform) (cursor : Text) :
    (strictLibrary cp).payload cursor = (match decodePayload cp cursor with
      | some v => .ok v
      | none => .error strictError) := by
  simp only [CursorLibrary.payload, strictLibrary, Call.strict, decodePayload]
  cases Base64.decode (Base64.repad cursor) with
  | none => rfl
  | some raw =>
    simp only [bind, Except.bind, Option.bind_some]
    cases Json.loads cp.toFloat raw with
    | none => rfl
    | some v => rfl

theorem fields_strict (cp : CursorPlatform) (known : Text → Option α) (written : Text → Prop)
    (exc : PyExc) (field rid : Text) :
    orRaise ["ValueError"] exc ((strictLibrary cp).fields (.strict known written) field rid) =
      (match known field, uuidOf rid with
      | some a, some id => .ok (a, id)
      | _, _ => .error exc) := by
  simp only [CursorLibrary.fields, strictLibrary, Call.strict]
  cases known field with
  | none => rfl
  | some a =>
    cases uuidOf rid with
    | none => rfl
    | some id => rfl

/-- Both decoders in one expression, over what the library's formats say. -/
def decodeKnown (cp : CursorPlatform) (known : Text → Option α) (key : Text) (refuse : Refusals)
    (cursor : Text) : Except PyExc (α × UUID) :=
  match decodePayload cp cursor with
  | some (.obj members) =>
    if !isCurrentVersion (Json.get members "v".toList) then
      .error (refuse.version (Json.get members "v".toList))
    else match Json.get members key, Json.get members "id".toList with
      | some (.str field), some (.str rid) =>
        match known field, uuidOf rid with
        | some a, some id => .ok (a, id)
        | _, _ => .error refuse.unparsed
      | _, _ => .error refuse.missing
  | _ => .error refuse.malformed

theorem decode_strict (cp : CursorPlatform) (known : Text → Option α) (written : Text → Prop)
    (key : Text) (refuse : Refusals) (cursor : Text) :
    (strictLibrary cp).decode key (.strict known written) refuse cursor =
      decodeKnown cp known key refuse cursor := by
  rw [CursorLibrary.decode, payload_strict, decodeKnown]
  cases decodePayload cp cursor with
  | none => rfl
  | some payload =>
    cases payload with
    | obj members =>
      dsimp only
      rw [orRaise_ok]
      dsimp only
      split
      · rfl
      cases Json.get members key with
      | none => rfl
      | some keyField =>
        cases keyField with
        | str field =>
          cases Json.get members "id".toList with
          | none => rfl
          | some idField =>
            cases idField with
            | str rid => exact fields_strict cp known written refuse.unparsed field rid
            | _ => rfl
        | _ => rfl
    | _ => rfl

/-- **Over strict calls the sessions decoder is `decodeSessionCursor`.** -/
theorem decodeSessionCursor_strict (cp : CursorPlatform) (cursor : Text) :
    (strictLibrary cp).decodeSessionCursor cursor = decodeSessionCursor cp cursor := by
  refine (decode_strict cp DateTime.fromisoformat _ "ts".toList sessionRefusals cursor).trans ?_
  unfold decodeKnown decodeSessionCursor
  cases decodePayload cp cursor with
  | none => rfl
  | some payload =>
    cases payload with
    | obj members =>
      dsimp only
      split
      · rfl
      cases Json.get members "ts".toList with
      | none => rfl
      | some keyField =>
        cases keyField with
        | str field =>
          cases Json.get members "id".toList with
          | none => rfl
          | some idField =>
            cases idField with
            | str rid =>
              dsimp only
              cases DateTime.fromisoformat field with
              | none => rfl
              | some ts => cases uuidOf rid <;> rfl
            | _ => rfl
        | _ => rfl
    | _ => rfl

/-- The error of the service as an exception object. -/
def serviceRefusal : ServiceError → PyExc
  | .validation message => memoryValidationError message
  | _ => strictError

/-- **Over strict calls the memory decoder is `decodeCursor`.** -/
theorem decodeCursor_strict (cp : CursorPlatform) (cursor : Text) :
    (strictLibrary cp).decodeCursor cursor = (decodeCursor cp cursor).mapError serviceRefusal := by
  refine (decode_strict cp Date.fromisoformat _ "ed".toList (memoryRefusals cp) cursor).trans ?_
  unfold decodeKnown decodeCursor
  cases decodePayload cp cursor with
  | none => rfl
  | some payload =>
    cases payload with
    | obj members =>
      dsimp only
      split
      · rfl
      cases Json.get members "ed".toList with
      | none => rfl
      | some keyField =>
        cases keyField with
        | str field =>
          cases Json.get members "id".toList with
          | none => rfl
          | some idField =>
            cases idField with
            | str rid =>
              dsimp only
              cases Date.fromisoformat field with
              | none => rfl
              | some d => cases uuidOf rid <;> rfl
            | _ => rfl
        | _ => rfl
    | _ => rfl

/-! ## The codecs -/

/-- What the two pairs of encoder and decoder keep to. -/
structure CodecsSound (lib : CursorLibrary cp) : Prop where
  round_trip : ∀ d id, lib.decodeCursor (encodeCursor d id) = .ok (d, id)
  session_round_trip : ∀ ts id, ts.WholeOffset →
    lib.decodeSessionCursor (encodeSessionCursor ts id) = .ok (ts, id)
  injective : Function.Injective2 encodeCursor
  session_injective : Function.Injective2 encodeSessionCursor
  rejects_session : ∀ ts id, ∃ message,
    lib.decodeCursor (encodeSessionCursor ts id) = .error (memoryValidationError message)
  session_rejects : ∀ d id,
    lib.decodeSessionCursor (encodeCursor d id) = .error malformedCursor
  outcome : ∀ cursor, (∃ p, lib.decodeCursor cursor = .ok p) ∨
    ∃ message, lib.decodeCursor cursor = .error (memoryValidationError message)
  session_outcome : ∀ cursor, (∃ p, lib.decodeSessionCursor cursor = .ok p) ∨
    lib.decodeSessionCursor cursor = .error malformedCursor

/-- What is decoded again was encoded from one pair. -/
theorem encodeCursor_injective : Function.Injective2 encodeCursor := by
  intro d d' id id' heq
  have hpair : Except.ok (d, id) = (Except.ok (d', id') : Except ServiceError (Date × UUID)) := by
    rw [← decodeCursor_encodeCursor plainCursors d id,
      ← decodeCursor_encodeCursor plainCursors d' id', heq]
  cases hpair
  exact ⟨rfl, rfl⟩

/-- The payload of a cursor, and so the texts in it. -/
theorem cursorPayload_injective {key field field' : Text} {id id' : UUID}
    (h : encodePayload (cursorPayload key field id) =
      encodePayload (cursorPayload key field' id')) :
    field = field' ∧ id = id' := by
  have hdecoded := decodePayload_encodePayload plainCursors (cursorPayload key field id)
  rw [h, decodePayload_encodePayload] at hdecoded
  simp only [cursorPayload, List.map_cons, List.map_nil, Json.Scalar.value, Option.some.injEq,
    Json.Value.obj.injEq, List.cons.injEq, Prod.mk.injEq, Json.Value.str.injEq, true_and,
    and_true] at hdecoded
  have hid := congrArg uuidOf hdecoded.2
  rw [uuidOf_uuidText, uuidOf_uuidText] at hid
  exact ⟨hdecoded.1.symm, (Option.some.inj hid).symm⟩

theorem encodeSessionCursor_injective : Function.Injective2 encodeSessionCursor := by
  intro ts ts' id id' heq
  have hfields := @cursorPayload_injective "ts".toList _ _ _ _ heq
  exact ⟨DateTime.isoformat_injective hfields.1, hfields.2⟩

/-- **Cursors are read back, told apart and refused in the documented way,** whatever the library
calls answer to other texts. -/
theorem codecs_sound (lib : CursorLibrary cp) : CodecsSound lib where
  round_trip d id := decodeCursor_written lib d id
  session_round_trip ts id hts := decodeSessionCursor_written lib hts id
  injective := encodeCursor_injective
  session_injective := encodeSessionCursor_injective
  rejects_session ts id := ⟨_, decode_written lib rfl⟩
  session_rejects d id := decode_written lib rfl
  outcome cursor := by
    rcases decode_outcome lib (memoryRefusals cp)
      (P := fun e => ∃ message, e = memoryValidationError message)
      ⟨_, rfl⟩ (fun _ => ⟨_, rfl⟩) ⟨_, rfl⟩ ⟨_, rfl⟩ cursor with hok | ⟨_, ⟨message, rfl⟩, herror⟩
    · exact Or.inl hok
    · exact Or.inr ⟨message, herror⟩
  session_outcome cursor := by
    rcases decode_outcome lib sessionRefusals (P := fun e => e = malformedCursor) rfl
      (fun _ => rfl) rfl rfl cursor with hok | ⟨_, rfl, herror⟩
    · exact Or.inl hok
    · exact Or.inr herror

theorem day_pos : 0 < 86400000000 := by decide

theorem halfSecond_range : (-86400000000 : Int) < 500000 ∧ (500000 : Int) < 86400000000 := by
  decide

/-- Midnight, half a second east of UTC. -/
def halfSecond : DateTime := ⟨sampleDate, ⟨0, day_pos⟩, some ⟨500000, halfSecond_range⟩⟩

/-- **An offset of half a second does not survive the cursor:** another point in time is read. -/
theorem halfSecond_offset :
    (strictLibrary plainCursors).decodeSessionCursor (encodeSessionCursor halfSecond 1) =
      .ok ({ halfSecond with offset := some .utc }, 1) ∧
    ({ halfSecond with offset := some .utc } : DateTime).instant ≠ halfSecond.instant := by
  refine ⟨?_, by decide⟩
  have hread : DateTime.fromisoformat halfSecond.isoformat =
      some { halfSecond with offset := some .utc } := DateTime.fromisoformat_short (by decide)
  rw [decodeSessionCursor_strict, decodeSessionCursor_encodeSessionCursor plainCursors hread]

end CursorErrors

end MeJournal
