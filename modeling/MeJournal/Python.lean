import Mathlib.Algebra.Group.Int.Defs
import Mathlib.Data.List.DropRight

/-!
# Python values the services work on

* `Text` — a `str` as its list of code points; `pyStrip` is `str.strip()`.  A `Char` is no
  surrogate: a `str` with a lone one, which UTF-8 cannot encode, is no `Text`.
* `UUID`, `Time` (an aware `datetime`, in microseconds since the Unix epoch), `Date`,
  `TimeOfDay`.
* `PyFloat` — a float, compared exactly: every finite double is a whole number of units
  `2 ^ -1074`.
* `PyExc` — an exception as its class names, most derived first, and its text.
* `writeColumn` — what an `UPDATE` of the ORM leaves in a column.
* `Platform` — what the Unicode tables, `hashlib`, `zoneinfo` and the database contribute; these
  live outside the repository and stay parameters.
-/

namespace MeJournal

abbrev UUID := BitVec 128

abbrev Time := Int

abbrev Text := List Char

/-- 32 bytes (`ck_memories_content_hash_len`). -/
abbrev Digest := BitVec 256

/-- A naive `datetime.time`, in microseconds since midnight. -/
abbrev TimeOfDay := Fin 86400000000

/-- `str.isspace` of one character. -/
def isPySpace (c : Char) : Bool :=
  let n := c.toNat
  (0x09 ≤ n && n ≤ 0x0D) || (0x1C ≤ n && n ≤ 0x20) || n == 0x85 || n == 0xA0 || n == 0x1680 ||
    (0x2000 ≤ n && n ≤ 0x200A) || n == 0x2028 || n == 0x2029 || n == 0x202F || n == 0x205F ||
    n == 0x3000

/-- `str.strip()`. -/
def pyStrip (t : Text) : Text := (t.dropWhile isPySpace).rdropWhile isPySpace

/-! ## Dates -/

def isLeap (y : Nat) : Bool := y % 4 == 0 && (y % 100 != 0 || y % 400 == 0)

def daysInMonth (y m : Nat) : Nat :=
  if m == 2 then (if isLeap y then 29 else 28)
  else if m == 4 || m == 6 || m == 9 || m == 11 then 30 else 31

/-- `datetime.date`. -/
structure Date where
  year : Nat
  month : Nat
  day : Nat
  year_range : 1 ≤ year ∧ year ≤ 9999
  month_range : 1 ≤ month ∧ month ≤ 12
  day_range : 1 ≤ day ∧ day ≤ daysInMonth year month
  deriving DecidableEq

/-- A date to evaluate on. -/
def sampleDate : Date where
  year := 2026
  month := 3
  day := 14
  year_range := by decide
  month_range := by decide
  day_range := by decide

/-- The last `width` decimal digits of `n`, zero padded. -/
def padded : Nat → Nat → Text
  | 0, _ => []
  | width + 1, n => padded width (n / 10) ++ [Nat.digitChar (n % 10)]

/-- `date.isoformat()`. -/
def Date.isoformat (d : Date) : Text :=
  padded 4 d.year ++ '-' :: padded 2 d.month ++ '-' :: padded 2 d.day

/-! ## Floats -/

/-- A double; `fin u` is `u * 2 ^ -1074`. -/
inductive PyFloat where
  | nan
  | inf (negative : Bool)
  | fin (units : Int)
  deriving DecidableEq

/-- `-bound <= x <= bound`. -/
def PyFloat.within (bound : Nat) : PyFloat → Bool
  | .nan => false
  | .inf _ => false
  | .fin u => decide (-(bound * 2 ^ 1074 : Int) ≤ u ∧ u ≤ bound * 2 ^ 1074)

/-! ## Exceptions -/

/-- An exception object: the names of its class and base classes, and `str(exc)`. -/
structure PyExc where
  cls : String
  bases : List String
  message : Text
  deriving DecidableEq

/-- `isinstance(exc, classes)`. -/
def PyExc.isinstance (e : PyExc) (classes : List String) : Bool :=
  classes.any fun c => c == e.cls || e.bases.contains c

/-! ## The ORM -/

/-- A column of the `UPDATE`: the new value where it differs from the loaded one. -/
def writeColumn {α : Type} [DecidableEq α] (old new current : α) : α :=
  if new = old then current else new

@[simp] theorem writeColumn_unchanged {α : Type} [DecidableEq α] (old current : α) :
    writeColumn old old current = current := if_pos rfl

/-- Over the loaded value the `UPDATE` leaves the new one. -/
@[simp] theorem writeColumn_loaded {α : Type} [DecidableEq α] (old new : α) :
    writeColumn old new old = new := by
  unfold writeColumn
  split
  · rename_i h
    exact h.symm
  · rfl

/-! ## What the database refuses -/

/-- A text of the row has a NUL character. -/
def textsHaveNul (text eventTz : Text) (locationLabel : Option Text) : Bool :=
  text.contains '\x00' || eventTz.contains '\x00' ||
    locationLabel.any fun label => label.contains '\x00'

/-- The classes of `sqlalchemy.exc` that wrap an error of the driver, less `IntegrityError`. -/
inductive DbErrorClass where
  | dataError
  | operationalError
  | internalError
  | programmingError
  | notSupportedError
  deriving DecidableEq

def DbErrorClass.name : DbErrorClass → String
  | dataError => "DataError"
  | operationalError => "OperationalError"
  | internalError => "InternalError"
  | programmingError => "ProgrammingError"
  | notSupportedError => "NotSupportedError"

/-- An error that the driver or the database raises on the values of a statement. -/
structure DbError where
  cls : DbErrorClass
  message : Text
  deriving DecidableEq

def DbError.exc (e : DbError) : PyExc where
  cls := e.cls.name
  bases := ["DatabaseError", "DBAPIError", "StatementError", "SQLAlchemyError", "Exception"]
  message := e.message

/-- What the driver raises on a NUL character. -/
def nulDataError : DbError where
  cls := .dataError
  message := "PostgreSQL text fields cannot contain NUL (0x00) bytes".toList

/-! ## The platform -/

/-- Library behaviour the services rely on. -/
structure Platform where
  /-- `unicodedata.normalize("NFC", ·)`. -/
  nfc : Text → Text
  /-- `str.lower`. -/
  lower : Text → Text
  /-- `hashlib.sha256(·.encode("utf-8")).digest()`. -/
  sha256 : Text → Digest
  /-- `repr` of a string. -/
  repr : Text → Text
  /-- `ZoneInfo(key)`: the exception it raises, if any. -/
  zoneInfo : Text → Except PyExc Unit
  /-- `datetime.fromisoformat(now_utc).astimezone(ZoneInfo(key))`, as a weekday and date. -/
  localStamp : Text → Text → Text
  /-- What writing the text, the time zone and the label of a row raises, before any constraint is
  checked: the driver on a NUL character, the database on more lexemes than `search_tsv` holds. -/
  refused : Text → Text → Option Text → Option DbError
  refused_nul : ∀ text eventTz locationLabel, textsHaveNul text eventTz locationLabel = true →
    refused text eventTz locationLabel = some nulDataError

/-- What `ZoneInfo` raises on an unknown key. -/
def zoneInfoNotFound (key : Text) : PyExc where
  cls := "ZoneInfoNotFoundError"
  bases := ["KeyError", "LookupError", "Exception"]
  message := "'No time zone found with key ".toList ++ key ++ "'".toList

/-- A platform to evaluate on: ASCII text that needs no normalisation, one time zone, and a database
that refuses NUL characters only. -/
def utcPlatform : Platform where
  nfc := id
  lower := fun t => t.map Char.toLower
  sha256 := fun t => BitVec.ofNat 256 (t.foldl (fun acc c => acc * 256 + c.toNat) 0)
  repr := fun t => '\'' :: t ++ ['\'']
  zoneInfo := fun key => if key = "UTC".toList then .ok () else .error (zoneInfoNotFound key)
  localStamp := fun now _ => now
  refused := fun text eventTz locationLabel =>
    if textsHaveNul text eventTz locationLabel then some nulDataError else none
  refused_nul := fun _ _ _ h => if_pos h

end MeJournal
