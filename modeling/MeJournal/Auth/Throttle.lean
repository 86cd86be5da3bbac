import MeJournal.Lib.Table
import MeJournal.Lib.Interleaving
import MeJournal.Python

/-!
# Throttling of passphrase checks

`app/services/auth_throttle.py`, and the part of `login` and `verify_passphrase` in
`app/api/auth.py` that uses it.  An attempt is a process over `auth_throttles`: the `SELECT` of
`get_lock_expiry`, the passphrase check, the `SELECT` of `record_failure` (or `clear_failures`),
and its commit.  The ORM writes the columns that differ from what was loaded, with no condition
on the row.

* `AuthThrottle.failed` — what `record_failure` makes of the row it loaded.
* `flushThrottle` — the write at commit.
* `recordFailure_eq_moves` — uninterrupted, the two moves after a wrong passphrase do what
  `record_failure` does.
-/

namespace MeJournal

/-! ## The table -/

/-- `AuthThrottle`. -/
structure AuthThrottle where
  key : Text
  action : Text
  clientIp : Text
  failureCount : Int
  windowStartedAt : Time
  lockedUntil : Option Time
  deriving DecidableEq

abbrev ThrottleTable := Table AuthThrottle.key

/-- The settings of the throttle. -/
structure ThrottleSettings where
  failures : Int
  windowSeconds : Int
  lockSeconds : Int

/-- `timedelta(seconds=n)`. -/
def seconds (n : Int) : Time := n * 1000000

def ThrottleSettings.window (settings : ThrottleSettings) : Time := seconds settings.windowSeconds

def ThrottleSettings.lock (settings : ThrottleSettings) : Time := seconds settings.lockSeconds

/-- `throttle_key`. -/
def throttleKey (action clientIp : Text) : Text := action ++ ':' :: clientIp

/-! ## Service functions -/

/-- The lock of the row, if it has not run out. -/
def AuthThrottle.lockExpiry (row : AuthThrottle) (now : Time) : Option Time :=
  row.lockedUntil.filter fun lockedUntil => now < lockedUntil

/-- `get_lock_expiry`. -/
def getLockExpiry (t : ThrottleTable) (action clientIp : Text) (now : Time) : Option Time :=
  (t.find (throttleKey action clientIp)).bind fun row => row.lockExpiry now

/-- The lock or the window of the row has run out. -/
def AuthThrottle.startsOver (settings : ThrottleSettings) (now : Time) (row : AuthThrottle) :
    Bool :=
  row.lockedUntil.any (fun lockedUntil => lockedUntil ≤ now) ||
    row.windowStartedAt + settings.window ≤ now

/-- `record_failure` up to the count. -/
def AuthThrottle.counted (settings : ThrottleSettings) (action clientIp : Text) (now : Time) :
    Option AuthThrottle → AuthThrottle
  | none => ⟨throttleKey action clientIp, action, clientIp, 1, now, none⟩
  | some row =>
    if row.startsOver settings now then
      { row with failureCount := 1, windowStartedAt := now, lockedUntil := none }
    else { row with failureCount := row.failureCount + 1 }

/-- The row `record_failure` commits, from the one it loaded. -/
def AuthThrottle.failed (settings : ThrottleSettings) (action clientIp : Text) (now : Time)
    (loaded : Option AuthThrottle) : AuthThrottle :=
  let row := AuthThrottle.counted settings action clientIp now loaded
  if settings.failures ≤ row.failureCount then
    { row with lockedUntil := some (now + settings.lock) }
  else row

/-- `UPDATE auth_throttles SET` the changed columns. -/
def AuthThrottle.write (old new current : AuthThrottle) : AuthThrottle where
  key := current.key
  action := writeColumn old.action new.action current.action
  clientIp := writeColumn old.clientIp new.clientIp current.clientIp
  failureCount := writeColumn old.failureCount new.failureCount current.failureCount
  windowStartedAt := writeColumn old.windowStartedAt new.windowStartedAt current.windowStartedAt
  lockedUntil := writeColumn old.lockedUntil new.lockedUntil current.lockedUntil

/-- The write at commit; `none` when it raises: the key of a new row is taken, or the row to
update is gone. -/
def flushThrottle (t : ThrottleTable) (loaded : Option AuthThrottle) (row : AuthThrottle) :
    Option ThrottleTable :=
  match loaded with
  | none => t.insert? row
  | some old =>
    if row = old then some t
    else if t.has old.key then
      some (t.mapRows (fun r => if r.key = old.key then AuthThrottle.write old row r else r)
        fun r => by split <;> rfl)
    else none

/-- `record_failure`: the lock it returns, and the table. -/
def recordFailure (settings : ThrottleSettings) (t : ThrottleTable) (action clientIp : Text)
    (now : Time) : Option (Option Time × ThrottleTable) :=
  let loaded := t.find (throttleKey action clientIp)
  let row := AuthThrottle.failed settings action clientIp now loaded
  (flushThrottle t loaded row).map fun t' => (row.lockedUntil, t')

/-! ## Attempts -/

/-- What `login` and `verify_passphrase` answer. -/
inductive AttemptResponse where
  /-- 429, "too_many_attempts". -/
  | tooManyAttempts (lockedUntil : Time)
  /-- 401, "invalid_credentials". -/
  | invalidCreds
  | ok
  /-- 500: the commit raised. -/
  | failed
  deriving DecidableEq

/-- How far an attempt is. -/
inductive AttemptPc where
  | start
  /-- `get_lock_expiry` returned `None`. -/
  | admitted
  /-- The passphrase was checked. -/
  | checked (ok : Bool)
  /-- `record_failure` loaded a row, if there was one, and computed the new one. -/
  | counted (loaded : Option AuthThrottle) (row : AuthThrottle)
  /-- `clear_failures` loaded a row to delete. -/
  | clearing
  | done (response : AttemptResponse)
  deriving DecidableEq

def AttemptPc.isDone : AttemptPc → Bool
  | .done _ => true
  | _ => false

/-- One request; `correct` is what the passphrase check says. -/
structure Attempt where
  action : Text
  clientIp : Text
  now : Time
  correct : Bool
  pc : AttemptPc
  deriving DecidableEq

def Attempt.key (p : Attempt) : Text := throttleKey p.action p.clientIp

/-- The answer to a wrong passphrase. -/
def AttemptResponse.ofLock : Option Time → AttemptResponse
  | none => .invalidCreds
  | some lockedUntil => .tooManyAttempts lockedUntil

/-- `DELETE FROM auth_throttles WHERE key = …`. -/
def deleteThrottle (t : ThrottleTable) (key : Text) : ThrottleTable :=
  ⟨t.rows.filter fun r => r.key ≠ key, t.pk.sublist (List.filter_sublist.map _)⟩

theorem deleteThrottle_find (t : ThrottleTable) (key k : Text) :
    (deleteThrottle t key).find k = if k = key then none else t.find k := by
  rw [Table.find, deleteThrottle, List.find?_filter]
  split
  · rename_i hk
    rw [List.find?_eq_none]
    intro r _
    simp [hk]
  · rename_i hk
    rw [Table.find]
    congr 1
    funext r
    by_cases hr : r.key = k
    · simp [hr, hk]
    · simp [hr]

/-- The next statement of an attempt. -/
def Attempt.move (settings : ThrottleSettings) (p : Attempt) (t : ThrottleTable) :
    Attempt × ThrottleTable :=
  match p.pc with
  | .start =>
    match getLockExpiry t p.action p.clientIp p.now with
    | some lockedUntil => ({ p with pc := .done (.tooManyAttempts lockedUntil) }, t)
    | none => ({ p with pc := .admitted }, t)
  | .admitted => ({ p with pc := .checked p.correct }, t)
  | .checked true =>
    match t.find p.key with
    | none => ({ p with pc := .done .ok }, t)
    | some _ => ({ p with pc := .clearing }, t)
  | .checked false =>
    let loaded := t.find p.key
    ({ p with pc := .counted loaded (.failed settings p.action p.clientIp p.now loaded) }, t)
  | .counted loaded row =>
    match flushThrottle t loaded row with
    | none => ({ p with pc := .done .failed }, t)
    | some t' => ({ p with pc := .done (.ofLock row.lockedUntil) }, t')
  | .clearing => ({ p with pc := .done .ok }, deleteThrottle t p.key)
  | .done _ => (p, t)

/-- Uninterrupted, the two moves after a wrong passphrase are `record_failure`. -/
theorem recordFailure_eq_moves (settings : ThrottleSettings) {p : Attempt} (t : ThrottleTable)
    (h : p.pc = .checked false) :
    ((p.move settings t).1.move settings (p.move settings t).2) =
      match recordFailure settings t p.action p.clientIp p.now with
      | none => ({ p with pc := .done .failed }, t)
      | some (lockedUntil, t') => ({ p with pc := .done (.ofLock lockedUntil) }, t') := by
  simp only [Attempt.move, h, recordFailure, Attempt.key]
  cases flushThrottle t (t.find (throttleKey p.action p.clientIp))
      (AuthThrottle.failed settings p.action p.clientIp p.now
        (t.find (throttleKey p.action p.clientIp))) <;> rfl

end MeJournal
