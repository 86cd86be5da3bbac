import MeJournal.Auth.Throttle
import MeJournal.Lib.Limiter

/-!
# One attempt after another

`login` and `verify_passphrase` from the request to the answer, with no other request in between.
The row of a key is then a limiter that locks, and no attempt touches the row of another key.

* `attempt_eq_moves` — the statements of an attempt, one after another, are `attempt`.
* `attempt_limiter` — an attempt does to the row of its key what a try does to the limiter.
* `attempts_throttled` — the counts, the locks and the guesses of a run.
-/

namespace MeJournal

/-! ## One attempt -/

/-- What becomes of an attempt; only a refused one leaves the passphrase unchecked. -/
inductive AttemptOutcome where
  | refused (lockedUntil : Time)
  | wrong (lockedUntil : Option Time)
  | right
  /-- The commit raised. -/
  | failed
  deriving DecidableEq

def AttemptOutcome.response : AttemptOutcome → AttemptResponse
  | .refused lockedUntil => .tooManyAttempts lockedUntil
  | .wrong lockedUntil => .ofLock lockedUntil
  | .right => .ok
  | .failed => .failed

/-- `clear_failures`. -/
def clearFailures (t : ThrottleTable) (action clientIp : Text) : ThrottleTable :=
  match t.find (throttleKey action clientIp) with
  | none => t
  | some _ => deleteThrottle t (throttleKey action clientIp)

/-- `login` and `verify_passphrase`, where `a.ok` is what the passphrase check says. -/
def attempt (settings : ThrottleSettings) (action clientIp : Text) (t : ThrottleTable)
    (a : Limiter.Try Time) : AttemptOutcome × ThrottleTable :=
  match getLockExpiry t action clientIp a.now with
  | some lockedUntil => (.refused lockedUntil, t)
  | none =>
    if a.ok then (.right, clearFailures t action clientIp)
    else
      match recordFailure settings t action clientIp a.now with
      | none => (.failed, t)
      | some (lockedUntil, t') => (.wrong lockedUntil, t')

/-- The statements of an attempt that nothing interrupts. -/
theorem attempt_eq_moves (settings : ThrottleSettings) (action clientIp : Text)
    (t : ThrottleTable) (a : Limiter.Try Time) :
    (fun s : Attempt × ThrottleTable => s.1.move settings s.2)^[4]
        (⟨action, clientIp, a.now, a.ok, .start⟩, t) =
      (⟨action, clientIp, a.now, a.ok,
        .done (attempt settings action clientIp t a).1.response⟩,
        (attempt settings action clientIp t a).2) := by
  simp only [Function.iterate_succ_apply, Function.iterate_zero, id_eq, attempt]
  cases hlock : getLockExpiry t action clientIp a.now with
  | some lockedUntil => simp only [Attempt.move, hlock, AttemptOutcome.response]
  | none =>
    cases hok : a.ok with
    | true =>
      cases hfind : t.find (throttleKey action clientIp) with
      | none =>
        simp only [Attempt.move, hlock, Attempt.key, hfind, clearFailures, if_true,
          AttemptOutcome.response]
      | some row =>
        simp only [Attempt.move, hlock, Attempt.key, hfind, clearFailures, if_true,
          AttemptOutcome.response]
    | false =>
      have hmoves := recordFailure_eq_moves settings
        (p := ⟨action, clientIp, a.now, false, .checked false⟩) t rfl
      simp only [Attempt.move, hlock] at hmoves ⊢
      rw [hmoves]
      cases recordFailure settings t action clientIp a.now with
      | none => rfl
      | some r => rfl

/-! ## The row of a key -/

/-- The row as the window of a limiter. -/
def AuthThrottle.row (r : AuthThrottle) : Limiter.Row Time :=
  ⟨r.failureCount, r.windowStartedAt, r.lockedUntil⟩

def ThrottleSettings.policy (settings : ThrottleSettings) : Limiter.Policy Time :=
  ⟨settings.failures, settings.window, settings.lock⟩

/-- The window of a key. -/
def rowOf (t : ThrottleTable) (key : Text) : Option (Limiter.Row Time) :=
  (t.find key).map AuthThrottle.row

def AttemptOutcome.ofLimiter : Limiter.Outcome Time → AttemptOutcome
  | .refused lockedUntil => .refused lockedUntil
  | .failed lockedUntil => .wrong lockedUntil
  | .passed => .right

variable {settings : ThrottleSettings} {action clientIp : Text} {t : ThrottleTable}
  {a : Limiter.Try Time}

theorem getLockExpiry_eq (now : Time) :
    getLockExpiry t action clientIp now =
      (rowOf t (throttleKey action clientIp)).bind fun r => r.lock now := by
  rw [getLockExpiry, rowOf, Option.bind_map]
  rfl

theorem failed_row (settings : ThrottleSettings) (action clientIp : Text) (now : Time)
    (loaded : Option AuthThrottle) :
    (AuthThrottle.failed settings action clientIp now loaded).row =
      settings.policy.fail now (loaded.map AuthThrottle.row) := by
  have hcounted : (AuthThrottle.counted settings action clientIp now loaded).row =
      settings.policy.counted now (loaded.map AuthThrottle.row) := by
    cases loaded with
    | none => rfl
    | some old =>
      rw [AuthThrottle.counted, Option.map_some, Limiter.Policy.counted]
      have hover : settings.policy.startsOver now old.row = old.startsOver settings now := rfl
      rw [hover]
      split <;> rfl
  rw [AuthThrottle.failed, Limiter.Policy.fail, ← hcounted]
  split <;> rename_i h
  · exact (if_pos h).symm
  · exact (if_neg h).symm

theorem failed_key (now : Time) {loaded : Option AuthThrottle}
    (h : ∀ old ∈ loaded, old.key = throttleKey action clientIp) :
    (AuthThrottle.failed settings action clientIp now loaded).key =
      throttleKey action clientIp := by
  have hcounted : (AuthThrottle.counted settings action clientIp now loaded).key =
      throttleKey action clientIp := by
    cases loaded with
    | none => rfl
    | some old =>
      rw [AuthThrottle.counted, ← h old rfl]
      split <;> rfl
  rw [AuthThrottle.failed]
  split
  · exact hcounted
  · exact hcounted

/-- **`record_failure` commits**, and only to the row of its key. -/
theorem recordFailure_find (settings : ThrottleSettings) (t : ThrottleTable)
    (action clientIp : Text) (now : Time) {loaded : Option AuthThrottle} {row : AuthThrottle}
    (hloaded : t.find (throttleKey action clientIp) = loaded)
    (hrow : AuthThrottle.failed settings action clientIp now loaded = row) :
    ∃ t', recordFailure settings t action clientIp now = some (row.lockedUntil, t') ∧
      ∀ k, t'.find k = if k = throttleKey action clientIp then some row else t.find k := by
  have hkey : row.key = throttleKey action clientIp := by
    rw [← hrow]
    exact failed_key now fun old hold => (Table.find_eq_some.1 (hloaded.trans hold)).2
  suffices hflush : ∃ t', flushThrottle t loaded row = some t' ∧
      ∀ k, t'.find k = if k = throttleKey action clientIp then some row else t.find k by
    obtain ⟨t', hflush, hfind⟩ := hflush
    refine ⟨t', ?_, hfind⟩
    simp only [recordFailure, hloaded, hrow, hflush, Option.map_some]
  cases loaded with
  | none =>
    obtain ⟨t', hinsert⟩ := Table.insert?_of_fresh (t := t) (r := row) fun s hs => by
      rw [hkey]
      exact Table.find_eq_none.1 hloaded s hs
    refine ⟨t', hinsert, fun k => ?_⟩
    rw [Table.find_insert? hinsert, hkey]
    simp only [eq_comm]
  | some old =>
    obtain ⟨hmem, hold⟩ := Table.find_eq_some.1 hloaded
    by_cases hsame : row = old
    · refine ⟨t, by rw [flushThrottle, if_pos hsame], fun k => ?_⟩
      split
      · rename_i hk
        rw [hk, hloaded, hsame]
      · rfl
    · have hhas : t.has old.key = true := Table.has_iff.2 ⟨old, hmem, rfl⟩
      refine ⟨_, by rw [flushThrottle, if_neg hsame, if_pos hhas], fun k => ?_⟩
      rw [Table.find_mapRows]
      split
      · rename_i hk
        rw [hk, hloaded, Option.map_some, if_pos rfl]
        simp [AuthThrottle.write, hold, ← hkey]
      · rename_i hk
        cases hfind : t.find k with
        | none => rfl
        | some r =>
          have hr : r.key ≠ old.key := by
            rw [(Table.find_eq_some.1 hfind).2, hold]
            exact hk
          rw [Option.map_some, if_neg hr]

theorem clearFailures_find (t : ThrottleTable) (action clientIp : Text) (k : Text) :
    (clearFailures t action clientIp).find k =
      if k = throttleKey action clientIp then none else t.find k := by
  cases hfind : t.find (throttleKey action clientIp) with
  | none =>
    simp only [clearFailures, hfind]
    split
    · rename_i hk
      rw [hk, hfind]
    · rfl
  | some row =>
    simp only [clearFailures, hfind]
    exact deleteThrottle_find t _ k

/-- **An attempt does to the row of its key what a try does to a limiter**, and nothing to the
other rows. -/
theorem attempt_limiter (settings : ThrottleSettings) (action clientIp : Text) (t : ThrottleTable)
    (a : Limiter.Try Time) :
    (attempt settings action clientIp t a).1 = .ofLimiter
        (settings.policy.outcome (rowOf t (throttleKey action clientIp)) a) ∧
      rowOf (attempt settings action clientIp t a).2 (throttleKey action clientIp) =
        settings.policy.step (rowOf t (throttleKey action clientIp)) a ∧
      ∀ k ≠ throttleKey action clientIp,
        (attempt settings action clientIp t a).2.find k = t.find k := by
  rw [attempt, getLockExpiry_eq, Limiter.Policy.outcome, Limiter.Policy.step]
  cases (rowOf t (throttleKey action clientIp)).bind fun r => r.lock a.now with
  | some lockedUntil => exact ⟨rfl, rfl, fun _ _ => rfl⟩
  | none =>
    cases hok : a.ok with
    | true =>
      refine ⟨rfl, ?_, fun k hk => ?_⟩
      · simp [rowOf, clearFailures_find, Limiter.Policy.record, hok]
      · simp [clearFailures_find, hk]
    | false =>
      obtain ⟨t', hrecord, hfind⟩ :=
        recordFailure_find settings t action clientIp a.now rfl rfl
      have hrow := failed_row settings action clientIp a.now
        (t.find (throttleKey action clientIp))
      simp only [hrecord, Bool.false_eq_true, if_false]
      refine ⟨?_, ?_, fun k hk => ?_⟩
      · rw [rowOf, ← hrow]
        rfl
      · rw [rowOf, hfind, if_pos rfl, Limiter.Policy.record, hok, rowOf, ← hrow]
        rfl
      · rw [hfind, if_neg hk]

/-! ## Runs -/

/-- The table after one more attempt. -/
def afterAttempt (settings : ThrottleSettings) (action clientIp : Text) (t : ThrottleTable)
    (a : Limiter.Try Time) : ThrottleTable := (attempt settings action clientIp t a).2

/-- The attempts of the run, each with the table it found. -/
def attemptsOf (settings : ThrottleSettings) (action clientIp : Text) (t : ThrottleTable)
    (attempts : List (Limiter.Try Time)) : List (ThrottleTable × Limiter.Try Time) :=
  Runs.steps (afterAttempt settings action clientIp) t attempts

/-- The table after `attempts`. -/
def afterAttempts (settings : ThrottleSettings) (action clientIp : Text) (t : ThrottleTable)
    (attempts : List (Limiter.Try Time)) : ThrottleTable :=
  Runs.run (afterAttempt settings action clientIp) t attempts

/-- The passphrase was checked, and was not the right one. -/
def AttemptOutcome.isWrong : AttemptOutcome → Bool
  | .wrong _ | .failed => true
  | .refused _ | .right => false

theorem isWrong_ofLimiter (out : Limiter.Outcome Time) :
    (AttemptOutcome.ofLimiter out).isWrong = out.isFailed := by
  cases out <;> rfl

theorem rowOf_afterAttempt (t : ThrottleTable) (a : Limiter.Try Time) :
    rowOf (afterAttempt settings action clientIp t a) (throttleKey action clientIp) =
      settings.policy.step (rowOf t (throttleKey action clientIp)) a :=
  (attempt_limiter settings action clientIp t a).2.1

theorem rowOf_afterAttempts (t : ThrottleTable) (attempts : List (Limiter.Try Time)) :
    rowOf (afterAttempts settings action clientIp t attempts) (throttleKey action clientIp) =
      Runs.run settings.policy.step (rowOf t (throttleKey action clientIp)) attempts :=
  Runs.run_view (f := fun t => rowOf t (throttleKey action clientIp))
    rowOf_afterAttempt t attempts

theorem attemptsOf_map (settings : ThrottleSettings) (action clientIp : Text) (t : ThrottleTable)
    (attempts : List (Limiter.Try Time)) :
    (attemptsOf settings action clientIp t attempts).map
        (fun p => (rowOf p.1 (throttleKey action clientIp), p.2)) =
      Runs.steps settings.policy.step (rowOf t (throttleKey action clientIp)) attempts :=
  Runs.steps_view (f := fun t => rowOf t (throttleKey action clientIp))
    rowOf_afterAttempt t attempts

/-- **A refused attempt does not look at the passphrase and leaves the table.** -/
theorem attempt_refused {lockedUntil : Time}
    (h : (attempt settings action clientIp t a).1 = .refused lockedUntil) (ok : Bool) :
    attempt settings action clientIp t ⟨a.now, ok⟩ = (.refused lockedUntil, t) := by
  rw [attempt] at h ⊢
  split at h
  · rename_i hlock
    rw [hlock]
    exact congrArg (·, t) h
  · exfalso
    split at h
    · cases h
    · split at h <;> cases h

/-- **The count of a row never exceeds the limit, and it is locked exactly at the limit.** -/
theorem afterAttempts_fits (hlimit : 1 ≤ settings.failures)
    (ht : rowOf t (throttleKey action clientIp) = none) (attempts : List (Limiter.Try Time)) :
    ∀ t' ∈ Runs.states (afterAttempt settings action clientIp) t attempts,
      ∀ r ∈ rowOf t' (throttleKey action clientIp), r.Fits settings.policy :=
  Runs.inv_states
    (I := fun t => ∀ r ∈ rowOf t (throttleKey action clientIp), r.Fits settings.policy)
    (fun t a h => by
      rw [rowOf_afterAttempt]
      exact Limiter.fits_step hlimit h a)
    (by simp [ht]) attempts

/-- **After the failure that reaches the limit** attempts are refused for the time of the lock, and
no longer. -/
theorem attempt_after_limit
    (ht : ∀ r ∈ rowOf (afterAttempt settings action clientIp t a) (throttleKey action clientIp),
      r.Fits settings.policy)
    (hwrong : (attempt settings action clientIp t a).1.isWrong = true)
    (hcount : ∃ row ∈ (afterAttempt settings action clientIp t a).find
      (throttleKey action clientIp), row.failureCount = settings.failures)
    {between : List (Limiter.Try Time)} (hbetween : ∀ c ∈ between, c.now < a.now + settings.lock)
    (b : Limiter.Try Time) :
    let later := afterAttempts settings action clientIp
      (afterAttempt settings action clientIp t a) between
    (b.now < a.now + settings.lock →
        (attempt settings action clientIp later b).1 = .refused (a.now + settings.lock)) ∧
      (a.now + settings.lock ≤ b.now → ∀ lockedUntil,
        (attempt settings action clientIp later b).1 ≠ .refused lockedUntil) := by
  intro later
  obtain ⟨row, hfind, hrow⟩ := hcount
  have hafter : rowOf (afterAttempt settings action clientIp t a) (throttleKey action clientIp) =
      some row.row := by
    rw [rowOf, hfind]
    rfl
  obtain ⟨u, hu⟩ := Option.isSome_iff_exists.1 ((ht _ hafter).locked.2 hrow)
  have hlock : u = a.now + settings.lock := by
    rw [(attempt_limiter settings action clientIp t a).1, isWrong_ofLimiter] at hwrong
    rw [rowOf_afterAttempt] at hafter
    exact Limiter.lockedUntil_step hwrong hafter hu
  subst hlock
  have hlater : rowOf later (throttleKey action clientIp) = some row.row := by
    rw [rowOf_afterAttempts, hafter]
    exact Limiter.run_locked hu hbetween
  rw [(attempt_limiter settings action clientIp later b).1, hlater]
  constructor
  · intro hlt
    rw [(Limiter.step_locked hu hlt).1]
    rfl
  · intro hle lockedUntil hout
    have hne := Limiter.outcome_of_le (p := settings.policy) hu hle
    cases hres : settings.policy.outcome (some row.row) b with
    | refused v => exact hne v hres
    | failed v => simp [hres, AttemptOutcome.ofLimiter] at hout
    | passed => simp [hres, AttemptOutcome.ofLimiter] at hout

/-- **Between successes an interval as long as the window holds at most `max N (2N - 2)` wrong
passphrases.** -/
theorem wrong_attempts_le (hlimit : 1 ≤ settings.failures)
    (hlock : settings.windowSeconds ≤ settings.lockSeconds)
    (ht : rowOf t (throttleKey action clientIp) = none) {attempts : List (Limiter.Try Time)}
    (hsorted : attempts.Pairwise fun a b => a.now ≤ b.now) (start : Time)
    (hright : ∀ p ∈ attemptsOf settings action clientIp t attempts,
      start ≤ p.2.now → p.2.now < start + settings.window →
        (attempt settings action clientIp p.1 p.2).1 ≠ .right) :
    ((attemptsOf settings action clientIp t attempts).countP fun p =>
        decide (start ≤ p.2.now ∧ p.2.now < start + settings.window) &&
          (attempt settings action clientIp p.1 p.2).1.isWrong : Int) ≤
      max settings.failures (2 * settings.failures - 2) := by
  have hsteps := attemptsOf_map settings action clientIp t attempts
  rw [ht] at hsteps
  have hpolicy : settings.policy.window ≤ settings.policy.lock :=
    Int.mul_le_mul_of_nonneg_right hlock (by decide)
  have hbound := Limiter.failuresIn_le (p := settings.policy) (b := start) hlimit hpolicy hsorted ?_
  · rw [Limiter.failuresIn, ← hsteps, List.countP_map] at hbound
    refine le_of_eq_of_le ?_ hbound
    congr 2
    funext p
    rw [(attempt_limiter settings action clientIp p.1 p.2).1, isWrong_ofLimiter]
    rfl
  · rw [← hsteps, List.forall_mem_map]
    intro p hp hin hpassed
    refine hright p hp hin.1 hin.2 ?_
    rw [(attempt_limiter settings action clientIp p.1 p.2).1, hpassed]
    rfl

/-- What the throttle promises of a run: an attempt that is refused does not look at the
passphrase; the count of the row and its lock; how long the lock lasts; how many passphrases can be
guessed. -/
structure ThrottledRun (settings : ThrottleSettings) (action clientIp : Text) (t : ThrottleTable)
    (attempts : List (Limiter.Try Time)) : Prop where
  refused : ∀ p ∈ attemptsOf settings action clientIp t attempts, ∀ lockedUntil,
    (attempt settings action clientIp p.1 p.2).1 = .refused lockedUntil →
      ∀ ok, attempt settings action clientIp p.1 ⟨p.2.now, ok⟩ = (.refused lockedUntil, p.1)
  count : ∀ t' ∈ Runs.states (afterAttempt settings action clientIp) t attempts,
    ∀ row ∈ t'.find (throttleKey action clientIp),
      row.failureCount ≤ settings.failures ∧
        (row.lockedUntil.isSome = true ↔ row.failureCount = settings.failures)
  lock : ∀ before a between b, before ++ a :: (between ++ [b]) <+: attempts →
    (attempt settings action clientIp
      (afterAttempts settings action clientIp t before) a).1.isWrong = true →
    (∃ row ∈ (afterAttempts settings action clientIp t (before ++ [a])).find
      (throttleKey action clientIp), row.failureCount = settings.failures) →
    let outcome := (attempt settings action clientIp
      (afterAttempts settings action clientIp t (before ++ a :: between)) b).1
    (b.now < a.now + settings.lock → outcome = .refused (a.now + settings.lock)) ∧
      ((∀ c ∈ between, c.now < a.now + settings.lock) → a.now + settings.lock ≤ b.now →
        ∀ lockedUntil, outcome ≠ .refused lockedUntil)
  guesses : ∀ start : Time,
    (∀ p ∈ attemptsOf settings action clientIp t attempts,
      start ≤ p.2.now → p.2.now < start + settings.window →
        (attempt settings action clientIp p.1 p.2).1 ≠ .right) →
    ((attemptsOf settings action clientIp t attempts).countP fun p =>
        decide (start ≤ p.2.now ∧ p.2.now < start + settings.window) &&
          (attempt settings action clientIp p.1 p.2).1.isWrong : Int) ≤
      max settings.failures (2 * settings.failures - 2)

end MeJournal
