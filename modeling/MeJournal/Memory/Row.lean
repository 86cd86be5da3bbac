import MeJournal.Python
import MeJournal.Lib.Table

/-!
# The `memories` table and the pure helpers of the memory service

`app/models/memory.py`, `app/services/_memory_errors.py` and
`app/services/_memory_helpers.py`: the row, the typed errors, the canonical hash, the
timezone and coordinate checks, and the metadata envelope sent to the remote index.
`updated_at` and `search_tsv` are left out: no service function reads them.
-/

namespace MeJournal

inductive ExternalStatus where
  | synced
  | unsynced
  | pendingDelete
  deriving DecidableEq

/-- `Memory`. -/
structure Memory where
  id : UUID
  userId : UUID
  text : Text
  eventDate : Date
  eventTime : Option TimeOfDay
  eventTz : Text
  locationLat : Option PyFloat
  locationLng : Option PyFloat
  locationLabel : Option Text
  contentHash : Digest
  externalId : Option String
  externalStatus : ExternalStatus
  externalSyncedAt : Option Time
  externalError : Option String
  createdAt : Time
  deletedAt : Option Time
  deriving DecidableEq

abbrev Memory.live (m : Memory) : Prop := m.deletedAt = none

abbrev MemoryTable := Table Memory.id

/-- What a memory-service call raises. -/
inductive ServiceError where
  /-- `MemoryNotFound(str(memory_id))`. -/
  | notFound (id : UUID)
  /-- `MemoryDuplicate`. -/
  | duplicate (message : Text)
  /-- `MemoryValidationError`. -/
  | validation (message : Text)
  /-- `MemoryIdempotencyReused(str(idempotency_id))`. -/
  | idempotencyReused (id : UUID)
  /-- An `IntegrityError` that no service function maps, with the violated constraint. -/
  | integrity (constraint : String)
  /-- `NoResultFound` of `scalar_one()`. -/
  | noResultFound
  /-- An exception of the platform that passes through. -/
  | raised (exc : PyExc)
  deriving DecidableEq

/-! ## Helpers -/

/-- `canonical_hash`. -/
def canonicalHash (pf : Platform) (text : Text) : Digest :=
  pf.sha256 (pf.lower (pyStrip (pf.nfc text)))

/-- `validate_tz`. -/
def validateTz (pf : Platform) (name : Text) : Except ServiceError Unit :=
  if name.isEmpty then .error (.validation "event_tz cannot be empty".toList)
  else match pf.zoneInfo name with
    | .ok _ => .ok ()
    | .error exc =>
      if exc.isinstance ["ZoneInfoNotFoundError", "ValueError"] then
        .error (.validation ("unknown timezone: ".toList ++ pf.repr name))
      else .error (.raised exc)

/-- `validate_location_pair`. -/
def validateLocationPair (lat lng : Option PyFloat) : Except ServiceError Unit :=
  if lat.isNone != lng.isNone then
    .error (.validation "location_lat and location_lng must be set together".toList)
  else if lat.any (fun x => !x.within 90) then
    .error (.validation "location_lat out of range".toList)
  else if lng.any (fun x => !x.within 180) then
    .error (.validation "location_lng out of range".toList)
  else .ok ()

/-- The coordinate CHECK constraints of the table. -/
def locationChecks (lat lng : Option PyFloat) : Bool :=
  lat.isNone == lng.isNone && lat.all (fun x => x.within 90) && lng.all (fun x => x.within 180)

/-- Coordinates the service accepts pass the CHECK constraints. -/
theorem validateLocationPair_checks {lat lng : Option PyFloat}
    (h : validateLocationPair lat lng = .ok ()) : locationChecks lat lng = true := by
  unfold validateLocationPair at h
  split at h
  · cases h
  rename_i hpair
  split at h
  · cases h
  rename_i hlat
  split at h
  · cases h
  rename_i hlng
  cases lat <;> cases lng <;> simp_all [locationChecks]

/-! ## Remote metadata -/

/-- A metadata value. -/
inductive MetadataValue where
  | str (v : Text)
  | int (v : Int)
  | float (v : PyFloat)
  deriving DecidableEq

abbrev Metadata := List (String × MetadataValue)

/-- `int(ts.timestamp())`: whole seconds, truncated towards zero. -/
def unixSeconds (ts : Time) : Int := ts.tdiv 1000000

/-- `_build_metadata`. -/
def buildMetadata (row : Memory) : Metadata :=
  [("event_date", .str row.eventDate.isoformat), ("event_tz", .str row.eventTz),
    ("created_at_unix", .int (unixSeconds row.createdAt))] ++
  (match row.locationLabel with
    | some label => if label.isEmpty then [] else [("location_label", .str label)]
    | none => []) ++
  (match row.locationLat, row.locationLng with
    | some lat, some lng => [("location_lat", .float lat), ("location_lng", .float lng)]
    | _, _ => [])

/-- `_container_tag`. -/
def containerTag (userId : UUID) : String := "user_" ++ userId.toHex

end MeJournal
