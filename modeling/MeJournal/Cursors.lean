import MeJournal.Lib.Base64
import MeJournal.Isoformat
import MeJournal.Memory.Row
import Mathlib.Data.Prod.Lex

/-!
# Pagination cursors

`encode_cursor` and `decode_cursor` of `app/services/_memory_helpers.py`, `_encode_cursor` and
`_decode_cursor` of `app/services/sessions.py`: a versioned JSON object in base64url without
padding.

* `KeyOrder` — dates and UUIDs in the order of the database: by day, and by their bytes.
* `decodeCursor_encodeCursor`, `decodeSessionCursor_encodeSessionCursor` — what was encoded is
  decoded.
-/

namespace MeJournal

/-! ## The order of the key columns -/

/-- The fields of a date, the most significant first. -/
def Date.fields (d : Date) : ℕ ×ₗ ℕ ×ₗ ℕ := toLex (d.year, toLex (d.month, d.day))

theorem Date.fields_injective : Function.Injective Date.fields := by
  intro d e h
  obtain ⟨_, _, _, _, _, _⟩ := d
  obtain ⟨_, _, _, _, _, _⟩ := e
  simp only [Date.fields, EmbeddingLike.apply_eq_iff_eq, Prod.mk.injEq] at h
  simpa using h

namespace KeyOrder

scoped instance : LinearOrder Date := LinearOrder.lift' Date.fields Date.fields_injective

scoped instance : LinearOrder UUID where
  le_refl _ := BitVec.le_refl _
  le_trans _ _ _ := BitVec.le_trans
  le_antisymm _ _ := BitVec.le_antisymm
  le_total := BitVec.le_total
  lt_iff_le_not_ge _ _ := by rw [BitVec.not_le]; exact ⟨fun h => ⟨BitVec.le_of_lt h, h⟩, And.right⟩
  toDecidableLE := inferInstance
  toDecidableEq := inferInstance
  toDecidableLT := inferInstance

end KeyOrder

/-! ## Page limits -/

/-- `MAX_PAGE_LIMIT`, of both services. -/
def maxPageLimit : Int := 200

/-- `_clamp_limit`, of both services. -/
def clampLimit (limit : Int) : Nat := (max 1 (min limit maxPageLimit)).toNat

theorem clampLimit_range (limit : Int) : 1 ≤ clampLimit limit ∧ clampLimit limit ≤ 200 := by
  unfold clampLimit maxPageLimit
  omega

/-! ## The codec -/

/-- What reading a cursor needs from the platform. -/
structure CursorPlatform where
  /-- `float(text)` of a JSON number. -/
  toFloat : Text → PyFloat
  /-- `repr` of `payload.get("v")`. -/
  reprValue : Option (Json.Value PyFloat) → Text

/-- A platform to evaluate on, for cursors without floats. -/
def plainCursors : CursorPlatform where
  toFloat := fun _ => .nan
  reprValue := fun _ => []

def cursorVersion : Nat := 1

/-- `base64.urlsafe_b64encode(json.dumps(payload)).rstrip(b"=")`. -/
def encodePayload (payload : List (Text × Json.Scalar)) : Text :=
  Base64.unpad (Base64.encode (Json.asciiBytes (Json.dumps payload)))

/-- The `try` block of the decoders; `none` where it raises. -/
def decodePayload (cp : CursorPlatform) (cursor : Text) : Option (Json.Value PyFloat) :=
  (Base64.decode (Base64.repad cursor)).bind (Json.loads cp.toFloat)

/-- `payload.get("v") == 1`, which `1.0` and `True` pass too. -/
def isCurrentVersion : Option (Json.Value PyFloat) → Bool
  | some (.int n) => n == cursorVersion
  | some (.float x) => x = .fin (2 ^ 1074)
  | some (.bool b) => b
  | _ => false

theorem decodePayload_encodePayload (cp : CursorPlatform) (payload : List (Text × Json.Scalar)) :
    decodePayload cp (encodePayload payload) =
      some (.obj (payload.map fun m => (m.1, m.2.value))) := by
  rw [decodePayload, encodePayload, Base64.repad_unpad_encode, Base64.decode_encode,
    Option.bind_some, Json.loads_dumps]

/-! ## Memories -/

def encodeCursor (eventDate : Date) (memoryId : UUID) : Text :=
  encodePayload [("v".toList, .num cursorVersion), ("ed".toList, .str eventDate.isoformat),
    ("id".toList, .str (uuidText memoryId))]

def decodeCursor (cp : CursorPlatform) (cursor : Text) : Except ServiceError (Date × UUID) :=
  match decodePayload cp cursor with
  | some (.obj payload) =>
    let version := Json.get payload "v".toList
    if !isCurrentVersion version then
      .error (.validation ("unsupported cursor version: ".toList ++ cp.reprValue version))
    else match Json.get payload "ed".toList, Json.get payload "id".toList with
      | some (.str ed), some (.str mid) =>
        match Date.fromisoformat ed, uuidOf mid with
        | some decodedDate, some decodedId => .ok (decodedDate, decodedId)
        | _, _ => .error (.validation "cursor field could not be parsed".toList)
      | _, _ => .error (.validation "cursor missing fields".toList)
  | _ => .error (.validation "malformed cursor".toList)

/-- **A cursor is decoded to what it was made from.** -/
theorem decodeCursor_encodeCursor (cp : CursorPlatform) (d : Date) (id : UUID) :
    decodeCursor cp (encodeCursor d id) = .ok (d, id) := by
  rw [decodeCursor, encodeCursor, decodePayload_encodePayload]
  have hv : Json.get (F := PyFloat) [("v".toList, .int 1), ("ed".toList, .str d.isoformat),
      ("id".toList, .str (uuidText id))] "v".toList = some (.int 1) := rfl
  have hed : Json.get (F := PyFloat) [("v".toList, .int 1), ("ed".toList, .str d.isoformat),
      ("id".toList, .str (uuidText id))] "ed".toList = some (.str d.isoformat) := rfl
  have hid : Json.get (F := PyFloat) [("v".toList, .int 1), ("ed".toList, .str d.isoformat),
      ("id".toList, .str (uuidText id))] "id".toList = some (.str (uuidText id)) := rfl
  simp only [List.map_cons, List.map_nil, Json.Scalar.value, cursorVersion, Nat.cast_one, hv, hed,
    hid, isCurrentVersion, Date.fromisoformat_isoformat, uuidOf_uuidText]
  rfl

/-! ## Sessions and messages -/

/-- `ValueError("malformed cursor")`. -/
def malformedCursor : PyExc where
  cls := "ValueError"
  bases := ["Exception"]
  message := "malformed cursor".toList

/-- `_encode_cursor` of the sessions service. -/
def encodeSessionCursor (ts : DateTime) (rowId : UUID) : Text :=
  encodePayload [("v".toList, .num cursorVersion), ("ts".toList, .str ts.isoformat),
    ("id".toList, .str (uuidText rowId))]

/-- `_decode_cursor` of the sessions service. -/
def decodeSessionCursor (cp : CursorPlatform) (cursor : Text) : Except PyExc (DateTime × UUID) :=
  match decodePayload cp cursor with
  | some (.obj payload) =>
    if !isCurrentVersion (Json.get payload "v".toList) then .error malformedCursor
    else match Json.get payload "ts".toList, Json.get payload "id".toList with
      | some (.str ts), some (.str rid) =>
        match DateTime.fromisoformat ts, uuidOf rid with
        | some decodedTs, some decodedId => .ok (decodedTs, decodedId)
        | _, _ => .error malformedCursor
      | _, _ => .error malformedCursor
  | _ => .error malformedCursor

/-- **A timestamp in a cursor is decoded to what is read from its text.** -/
theorem decodeSessionCursor_encodeSessionCursor (cp : CursorPlatform) {ts ts' : DateTime}
    (h : DateTime.fromisoformat ts.isoformat = some ts') (id : UUID) :
    decodeSessionCursor cp (encodeSessionCursor ts id) = .ok (ts', id) := by
  rw [decodeSessionCursor, encodeSessionCursor, decodePayload_encodePayload]
  have hv : Json.get (F := PyFloat) [("v".toList, .int 1), ("ts".toList, .str ts.isoformat),
      ("id".toList, .str (uuidText id))] "v".toList = some (.int 1) := rfl
  have hts : Json.get (F := PyFloat) [("v".toList, .int 1), ("ts".toList, .str ts.isoformat),
      ("id".toList, .str (uuidText id))] "ts".toList = some (.str ts.isoformat) := rfl
  have hid : Json.get (F := PyFloat) [("v".toList, .int 1), ("ts".toList, .str ts.isoformat),
      ("id".toList, .str (uuidText id))] "id".toList = some (.str (uuidText id)) := rfl
  simp only [List.map_cons, List.map_nil, Json.Scalar.value, cursorVersion, Nat.cast_one, hv, hts,
    hid, isCurrentVersion, h, uuidOf_uuidText]
  rfl

end MeJournal
