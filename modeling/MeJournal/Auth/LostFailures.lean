import MeJournal.Auth.Throttle
import MeJournal.Lib.ReadModifyWrite

/-!
# Interleaved failures on one key

Attempts with a wrong passphrase on one `(action, client_ip)`, their statements interleaved in
any order.  While no attempt reads a count at the limit no lock is set, and the attempts are the
processes of an unlocked read-modify-write counter.

* `inv_attemptStep` — the window of the row stays, and locks come only from attempts at the limit.
* `abs_step` — below the limit, a statement is a step of the counter or none.
* `failures_counted_iff` — after all attempts the key is locked or every failure is counted,
  exactly when one of them read a count at the limit or each commit wrote over the count that its
  request had read.
-/

namespace MeJournal

/-! ## Runs -/

abbrev Attempts := Interleaving.System ThrottleTable Attempt

/-- Attempt `i` makes its next move. -/
def attemptStep (settings : ThrottleSettings) (s : Attempts) (i : Nat) : Attempts :=
  Interleaving.step (fun _ : Unit => Attempt.move settings) s (.move i ())

def failingAttempt (action clientIp : Text) (now : Time) : Attempt :=
  ⟨action, clientIp, now, false, .start⟩

/-- One failing attempt for each clock. -/
def attemptsStart (t : ThrottleTable) (action clientIp : Text) (clocks : List Time) : Attempts :=
  ⟨t, clocks.map (failingAttempt action clientIp)⟩

/-- The last state of a run in the order `order`. -/
def attemptsRun (settings : ThrottleSettings) (t : ThrottleTable) (action clientIp : Text)
    (clocks : List Time) (order : List Nat) : Attempts :=
  Runs.run (attemptStep settings) (attemptsStart t action clientIp clocks) order

/-- The moves of that run. -/
def attemptsSteps (settings : ThrottleSettings) (t : ThrottleTable) (action clientIp : Text)
    (clocks : List Time) (order : List Nat) : List (Attempts × Nat) :=
  Runs.steps (attemptStep settings) (attemptsStart t action clientIp clocks) order

/-- Every attempt has been answered. -/
def AllDone (s : Attempts) : Prop := ∀ p ∈ s.procs, p.pc.isDone = true

instance (s : Attempts) : Decidable (AllDone s) :=
  inferInstanceAs (Decidable (∀ p ∈ s.procs, _))

/-! ## The property and the condition -/

/-- The key is locked at `now`, or its count has grown by `k`. -/
def CountedOrLocked (key : Text) (count : Int) (k : Nat) (now : Time) (t : ThrottleTable) : Prop :=
  ∃ row ∈ t.find key, (row.lockExpiry now).isSome = true ∨ row.failureCount = count + k

instance (key : Text) (count : Int) (k : Nat) (now : Time) (t : ThrottleTable) :
    Decidable (CountedOrLocked key count k now t) :=
  inferInstanceAs (Decidable (∃ row ∈ t.find key, _))

/-- The next move of attempt `i` is the `SELECT` of `record_failure`, and one failure more
reaches the limit. -/
def ReachesLimit (settings : ThrottleSettings) (key : Text) (s : Attempts) (i : Nat) : Prop :=
  ∃ p ∈ s.procs[i]?, p.pc = .checked false ∧
    ∃ row ∈ s.shared.find key, settings.failures ≤ row.failureCount + 1

/-- If the next move of attempt `i` is a commit, the count is the one it loaded. -/
def WritesOverRead (key : Text) (s : Attempts) (i : Nat) : Prop :=
  ∀ p ∈ s.procs[i]?, ∀ old new, p.pc = .counted (some old) new →
    ∀ row ∈ s.shared.find key, row.failureCount = old.failureCount

/-! ## One window -/

/-- A row in the window that started at `start`, with no lock but those in `locks`. -/
structure ThrottleFits (key : Text) (start : Time) (locks : List Time) (row : AuthThrottle) :
    Prop where
  key : row.key = key
  window : row.windowStartedAt = start
  lock : ∀ lockedUntil, row.lockedUntil = some lockedUntil → lockedUntil ∈ locks

/-- The clocks lie in the window, before the end of every lock. -/
structure OneWindow (settings : ThrottleSettings) (start : Time) (locks clocks : List Time) :
    Prop where
  window : ∀ u ∈ clocks, u < start + settings.window
  lock : ∀ u ∈ clocks, ∀ lockedUntil ∈ locks, u < lockedUntil

variable {settings : ThrottleSettings} {action clientIp : Text} {start : Time}
  {locks clocks : List Time}

theorem ThrottleFits.startsOver_eq {key : Text} {old : AuthThrottle}
    (h : ThrottleFits key start locks old)
    (hw : OneWindow settings start locks clocks) {u : Time} (hu : u ∈ clocks) :
    old.startsOver settings u = false := by
  have hwindow : ¬ old.windowStartedAt + settings.window ≤ u :=
    not_le.2 (h.window.symm ▸ hw.window u hu)
  have hlock : old.lockedUntil.any (fun lockedUntil => lockedUntil ≤ u) = false := by
    cases hold : old.lockedUntil with
    | none => rfl
    | some lockedUntil => simpa using hw.lock u hu lockedUntil (h.lock _ hold)
  rw [AuthThrottle.startsOver, hlock, Bool.false_or]
  exact decide_eq_false hwindow

/-- What `record_failure` computes within the window. -/
theorem ThrottleFits.failed_eq {key : Text} {old : AuthThrottle}
    (h : ThrottleFits key start locks old)
    (hw : OneWindow settings start locks clocks) {u : Time} (hu : u ∈ clocks) :
    AuthThrottle.failed settings action clientIp u (some old) =
      { old with
        failureCount := old.failureCount + 1
        lockedUntil := if settings.failures ≤ old.failureCount + 1 then some (u + settings.lock)
          else old.lockedUntil } := by
  simp only [AuthThrottle.failed, AuthThrottle.counted, h.startsOver_eq hw hu, Bool.false_eq_true,
    if_false]
  split <;> rfl

/-! ## The commit -/

/-- The lock a commit leaves. -/
def lockAfter (settings : ThrottleSettings) (u : Time) (old current : AuthThrottle) : Option Time :=
  writeColumn old.lockedUntil
    (if settings.failures ≤ old.failureCount + 1 then some (u + settings.lock)
      else old.lockedUntil) current.lockedUntil

/-- **The commit of a failure** overwrites the count, whatever it is by now. -/
theorem ThrottleFits.flush {key : Text} {old current : AuthThrottle} {t : ThrottleTable}
    (h : ThrottleFits key start locks old) (hw : OneWindow settings start locks clocks) {u : Time}
    (hu : u ∈ clocks) (hcurrent : t.find key = some current) :
    ∃ t', flushThrottle t (some old)
        (AuthThrottle.failed settings action clientIp u (some old)) = some t' ∧
      t'.find key = some { current with
        failureCount := old.failureCount + 1
        lockedUntil := lockAfter settings u old current } := by
  obtain ⟨hmem, hkey⟩ := Table.find_eq_some.1 hcurrent
  have hne : AuthThrottle.failed settings action clientIp u (some old) ≠ old := by
    intro heq
    have hcount := congrArg AuthThrottle.failureCount heq
    rw [h.failed_eq hw hu] at hcount
    simp only at hcount
    omega
  have hhas : t.has old.key = true := Table.has_iff.2 ⟨current, hmem, hkey.trans h.key.symm⟩
  simp only [flushThrottle, if_neg hne, hhas, if_true]
  refine ⟨_, rfl, ?_⟩
  have hgrown : ¬ old.failureCount + 1 = old.failureCount := by omega
  rw [Table.find_mapRows, hcurrent, Option.map_some, if_pos (hkey.trans h.key.symm),
    h.failed_eq hw hu]
  simp [AuthThrottle.write, writeColumn, lockAfter, hgrown]

theorem lockAfter_of_limit {u : Time} {old current : AuthThrottle}
    (h : settings.failures ≤ old.failureCount + 1) :
    lockAfter settings u old current =
      if some (u + settings.lock) = old.lockedUntil then current.lockedUntil
      else some (u + settings.lock) := by
  rw [lockAfter, if_pos h, writeColumn]

/-- Below the limit the lock stays as it is. -/
theorem lockAfter_of_below {u : Time} {old current : AuthThrottle}
    (h : ¬ settings.failures ≤ old.failureCount + 1) :
    lockAfter settings u old current = current.lockedUntil := by
  rw [lockAfter, if_neg h, writeColumn, if_pos rfl]

/-- A commit never unlocks. -/
theorem lockAfter_isSome {u : Time} {old current : AuthThrottle}
    (h : current.lockedUntil.isSome = true) : (lockAfter settings u old current).isSome = true := by
  by_cases hlimit : settings.failures ≤ old.failureCount + 1
  · rw [lockAfter_of_limit hlimit]
    split
    · exact h
    · rfl
  · rw [lockAfter_of_below hlimit]
    exact h

/-- A failure at the limit locks the key. -/
theorem lockAfter_locks {u : Time} {old current : AuthThrottle}
    (hlimit : settings.failures ≤ old.failureCount + 1)
    (h : old.lockedUntil.isSome = true → current.lockedUntil.isSome = true) :
    (lockAfter settings u old current).isSome = true := by
  rw [lockAfter_of_limit hlimit]
  split
  · rename_i heq
    exact h (heq ▸ rfl)
  · rfl

theorem lockAfter_mem {key : Text} {u : Time} {old current : AuthThrottle}
    (hcurrent : ThrottleFits key start locks current)
    (hlimit : settings.failures ≤ old.failureCount + 1 → u + settings.lock ∈ locks)
    {lockedUntil : Time} (h : lockAfter settings u old current = some lockedUntil) :
    lockedUntil ∈ locks := by
  by_cases hreached : settings.failures ≤ old.failureCount + 1
  · rw [lockAfter_of_limit hreached] at h
    split at h
    · exact hcurrent.lock _ h
    · cases h
      exact hlimit hreached
  · rw [lockAfter_of_below hreached] at h
    exact hcurrent.lock _ h

/-! ## The invariant -/

/-- A failing attempt on the key.  What it loaded fits the window, and a lock it saw is still
there. -/
structure AttemptFits (settings : ThrottleSettings) (action clientIp : Text) (start : Time)
    (locks clocks : List Time) (_ : Nat) (t : ThrottleTable) (p : Attempt) : Prop where
  sameAction : p.action = action
  sameIp : p.clientIp = clientIp
  clock : p.now ∈ clocks
  wrong : p.correct = false
  stage : p.pc ≠ .checked true ∧ p.pc ≠ .clearing
  counted : ∀ loaded new, p.pc = .counted loaded new → ∃ old, loaded = some old ∧
    ThrottleFits (throttleKey action clientIp) start locks old ∧
    new = .failed settings action clientIp p.now (some old) ∧
    (settings.failures ≤ old.failureCount + 1 → p.now + settings.lock ∈ locks) ∧
    (old.lockedUntil.isSome = true →
      ∀ row ∈ t.find (throttleKey action clientIp), row.lockedUntil.isSome = true)

/-- The key has a row, and it fits the window. -/
def TableFits (key : Text) (start : Time) (locks : List Time) (t : ThrottleTable) : Prop :=
  ∃ row ∈ t.find key, ThrottleFits key start locks row

/-- `t'` has the row of the key no less locked than `t`. -/
def StaysLocked (key : Text) (t t' : ThrottleTable) : Prop :=
  (∃ row ∈ t.find key, row.lockedUntil.isSome = true) →
    ∀ row ∈ t'.find key, row.lockedUntil.isSome = true

theorem staysLocked_refl (key : Text) (t : ThrottleTable) : StaysLocked key t t := by
  rintro ⟨row, hrow, hlocked⟩ row' hrow'
  cases hrow.symm.trans hrow'
  exact hlocked

theorem AttemptFits.mono {i : Nat} {t t' : ThrottleTable} {p : Attempt}
    (h : AttemptFits settings action clientIp start locks clocks i t p)
    (hfits : TableFits (throttleKey action clientIp) start locks t)
    (hlocked : StaysLocked (throttleKey action clientIp) t t') :
    AttemptFits settings action clientIp start locks clocks i t' p := by
  refine ⟨h.sameAction, h.sameIp, h.clock, h.wrong, h.stage, fun loaded new hpc => ?_⟩
  obtain ⟨old, hloaded, hold, hnew, hlimit, hseen⟩ := h.counted loaded new hpc
  obtain ⟨row, hrow, _⟩ := hfits
  exact ⟨old, hloaded, hold, hnew, hlimit, fun hlock => hlocked ⟨row, hrow, hseen hlock row hrow⟩⟩

/-- **One move of a failing attempt.** -/
theorem AttemptFits.move {i : Nat} {t : ThrottleTable} {p : Attempt}
    (h : AttemptFits settings action clientIp start locks clocks i t p)
    (hw : OneWindow settings start locks clocks)
    (hfits : TableFits (throttleKey action clientIp) start locks t)
    (hlimit : ∀ row ∈ t.find (throttleKey action clientIp), p.pc = .checked false →
      settings.failures ≤ row.failureCount + 1 → p.now + settings.lock ∈ locks) :
    AttemptFits settings action clientIp start locks clocks i (p.move settings t).2
        (p.move settings t).1 ∧
      TableFits (throttleKey action clientIp) start locks (p.move settings t).2 ∧
      StaysLocked (throttleKey action clientIp) t (p.move settings t).2 := by
  have hrefl := staysLocked_refl (throttleKey action clientIp) t
  obtain ⟨haction, hip, hclock, hwrong, ⟨hright, hclearing⟩, hcounted⟩ := h
  unfold Attempt.move
  split
  · split
    · exact ⟨⟨haction, hip, hclock, hwrong, by simp, by simp⟩, hfits, hrefl⟩
    · exact ⟨⟨haction, hip, hclock, hwrong, by simp, by simp⟩, hfits, hrefl⟩
  · exact ⟨⟨haction, hip, hclock, hwrong, by simp [hwrong], by simp⟩, hfits, hrefl⟩
  · rename_i hpc
    exact absurd hpc hright
  · rename_i hpc
    obtain ⟨row, hrow, hrowFits⟩ := hfits
    subst haction hip
    refine ⟨⟨rfl, rfl, hclock, hwrong, by simp, ?_⟩, ⟨row, hrow, hrowFits⟩, hrefl⟩
    rintro loaded new ⟨⟩
    exact ⟨row, hrow, hrowFits, congrArg _ hrow, hlimit row hrow hpc,
      fun hlock => hrefl ⟨row, hrow, hlock⟩⟩
  · rename_i loaded new hpc
    obtain ⟨old, rfl, hold, rfl, hold_limit, hseen⟩ := hcounted loaded new hpc
    obtain ⟨row, hrow, hrowFits⟩ := hfits
    obtain ⟨t', hflush, hrow'⟩ : ∃ t', flushThrottle t (some old)
        (.failed settings action clientIp p.now (some old)) = some t' ∧ _ :=
      hold.flush hw hclock hrow
    rw [hflush]
    refine ⟨⟨haction, hip, hclock, hwrong, by simp, by simp⟩, ⟨_, hrow', hrowFits.key,
      hrowFits.window, fun _ hlock => lockAfter_mem hrowFits hold_limit hlock⟩, ?_⟩
    rintro ⟨row₀, hrow₀, hlocked⟩ row₁ hrow₁
    cases hrow.symm.trans hrow₀
    cases hrow'.symm.trans hrow₁
    exact lockAfter_isSome hlocked
  · rename_i hpc
    exact absurd hpc hclearing
  · rename_i hpc
    exact ⟨⟨haction, hip, hclock, hwrong, ⟨hright, hclearing⟩, hcounted⟩, hfits, hrefl⟩

/-- The invariant of a run of failing attempts. -/
abbrev AttemptsInv (settings : ThrottleSettings) (action clientIp : Text) (start : Time)
    (locks clocks : List Time) (s : Attempts) : Prop :=
  Interleaving.Inv (TableFits (throttleKey action clientIp) start locks)
    (AttemptFits settings action clientIp start locks clocks) s

/-- **One move of a run**: a lock not yet in `locks` can only come from an attempt that reaches
the limit. -/
theorem inv_attemptStep (hw : OneWindow settings start locks clocks) {s : Attempts}
    (h : AttemptsInv settings action clientIp start locks clocks s) (i : Nat)
    (hlimit : ReachesLimit settings (throttleKey action clientIp) s i →
      ∀ p ∈ s.procs[i]?, p.now + settings.lock ∈ locks) :
    AttemptsInv settings action clientIp start locks clocks (attemptStep settings s i) := by
  refine Interleaving.inv_step h (fun _ => nofun) ?_
  rintro _ _ p ⟨⟩ hp
  obtain ⟨hself, hfits, hlocked⟩ := (h.procs i p hp).move hw h.shared
    fun row hrow hpc hreached => hlimit ⟨p, hp, hpc, row, hrow, hreached⟩ p hp
  exact ⟨hfits, hself, fun j q _ hq => (h.procs j q hq).mono h.shared hlocked⟩

theorem attemptsStart_inv {t : ThrottleTable} {row : AuthThrottle}
    (hrow : t.find (throttleKey action clientIp) = some row)
    (hfits : ThrottleFits (throttleKey action clientIp) start locks row) :
    AttemptsInv settings action clientIp start locks clocks
      (attemptsStart t action clientIp clocks) := by
  refine ⟨⟨row, hrow, hfits⟩, fun i p hp => ?_⟩
  obtain ⟨u, hu, rfl⟩ := List.mem_map.1 (List.mem_of_getElem? hp)
  exact ⟨rfl, rfl, hu, rfl, by simp [failingAttempt], nofun⟩

/-! ## Below the limit: a counter -/

/-- The attempt as a process of the counter. -/
def Attempt.phase (p : Attempt) : ReadModifyWrite.Phase :=
  match p.pc with
  | .counted (some old) _ => .holding old.failureCount
  | .done _ => .done
  | _ => .idle

def countOf (key : Text) (t : ThrottleTable) : Int :=
  ((t.find key).map AuthThrottle.failureCount).getD 0

/-- The run as a counter. -/
def counterOf (key : Text) (s : Attempts) : ReadModifyWrite.State :=
  ⟨countOf key s.shared, s.procs.map Attempt.phase⟩

theorem countOf_eq {key : Text} {t : ThrottleTable} {row : AuthThrottle}
    (h : t.find key = some row) : countOf key t = row.failureCount := by
  rw [countOf, h]
  rfl

theorem phase_eq_holding {p : Attempt} {read : Int} :
    p.phase = .holding read ↔
      ∃ old new, p.pc = .counted (some old) new ∧ old.failureCount = read := by
  unfold Attempt.phase
  split
  · rename_i old new hpc
    simp [hpc]
  · rename_i hpc
    simp [hpc]
  · rename_i hcounted _
    exact iff_of_false nofun fun ⟨old, new, hpc, _⟩ => hcounted old new hpc

/-- Without a lock, a move of an attempt is a move of the counter's process, or one that reads
and writes nothing of it. -/
theorem move_phase (hw : OneWindow settings start [] clocks) {i : Nat} {t : ThrottleTable}
    {p : Attempt} (h : AttemptFits settings action clientIp start [] clocks i t p)
    (hfits : TableFits (throttleKey action clientIp) start [] t) :
    (p.phase = .idle ∧ (p.move settings t).1.phase = .idle ∧ (p.move settings t).2 = t) ∨
      ((p.move settings t).1.phase, countOf (throttleKey action clientIp) (p.move settings t).2) =
        ReadModifyWrite.move () p.phase (countOf (throttleKey action clientIp) t) := by
  obtain ⟨row, hrow, hrowFits⟩ := hfits
  obtain ⟨rfl, rfl, hclock, _, ⟨hright, hclearing⟩, hcounted⟩ := h
  have hunlocked : row.lockedUntil = none := by
    cases hlock : row.lockedUntil with
    | none => rfl
    | some lockedUntil => cases hrowFits.lock _ hlock
  have hadmitted : getLockExpiry t p.action p.clientIp p.now = none := by
    simp [getLockExpiry, Option.mem_def.1 hrow, AuthThrottle.lockExpiry, hunlocked]
  unfold Attempt.move
  split
  · rename_i hpc
    rw [hadmitted]
    exact Or.inl ⟨by simp [Attempt.phase, hpc], rfl, rfl⟩
  · rename_i hpc
    exact Or.inl ⟨by simp [Attempt.phase, hpc], rfl, rfl⟩
  · rename_i hpc
    exact absurd hpc hright
  · rename_i hpc
    refine Or.inr ?_
    have hidle : p.phase = .idle := by simp [Attempt.phase, hpc]
    have hkey : t.find p.key = some row := hrow
    rw [hidle, countOf_eq hrow]
    simp only [hkey, Attempt.phase, ReadModifyWrite.move]
  · rename_i loaded new hpc
    obtain ⟨old, rfl, hold, rfl, _⟩ := hcounted loaded new hpc
    obtain ⟨t', hflush, hrow'⟩ : ∃ t', flushThrottle t (some old)
        (.failed settings p.action p.clientIp p.now (some old)) = some t' ∧ _ :=
      hold.flush hw hclock hrow
    refine Or.inr ?_
    have hholding : p.phase = .holding old.failureCount := by simp [Attempt.phase, hpc]
    rw [hflush, hholding, countOf_eq hrow']
    rfl
  · rename_i hpc
    exact absurd hpc hclearing
  · rename_i hpc
    refine Or.inr ?_
    have hdone : p.phase = .done := by simp [Attempt.phase, hpc]
    rw [hdone]
    rfl

/-- **Below the limit** a move is a step of the counter, or changes nothing of it. -/
theorem abs_step (hw : OneWindow settings start [] clocks) {s : Attempts}
    (h : AttemptsInv settings action clientIp start [] clocks s) (i : Nat) :
    (counterOf (throttleKey action clientIp) (attemptStep settings s i) =
        counterOf (throttleKey action clientIp) s ∧
      ReadModifyWrite.Exact (counterOf (throttleKey action clientIp) s) i) ∨
    counterOf (throttleKey action clientIp) (attemptStep settings s i) =
      ReadModifyWrite.step (counterOf (throttleKey action clientIp) s) i := by
  cases hp : s.procs[i]? with
  | none =>
    refine Or.inl ⟨by rw [attemptStep, Interleaving.step_move_none hp], fun read hread => ?_⟩
    simp [counterOf, hp] at hread
  | some p =>
    have hphase : (counterOf (throttleKey action clientIp) s).procs[i]? = some p.phase := by
      simp [counterOf, hp]
    have hstep : counterOf (throttleKey action clientIp) (attemptStep settings s i) =
        ⟨countOf (throttleKey action clientIp) (p.move settings s.shared).2,
          (s.procs.map Attempt.phase).set i (p.move settings s.shared).1.phase⟩ := by
      rw [attemptStep, Interleaving.step_move hp, counterOf, List.map_set]
    rw [hstep]
    rcases move_phase hw (h.procs i p hp) h.shared with ⟨hidle, hidle', htable⟩ | hmove
    · left
      rw [hidle] at hphase
      obtain ⟨hi, hget⟩ := List.getElem?_eq_some_iff.1 hphase
      refine ⟨?_, fun read hread => ?_⟩
      · rw [htable, hidle', ← hget]
        simp only [counterOf, List.set_getElem_self]
      · rw [hphase] at hread
        cases hread
    · right
      obtain ⟨hphase', hcount⟩ := Prod.ext_iff.1 hmove
      rw [ReadModifyWrite.step, Interleaving.step_move hphase]
      simp only at hphase' hcount
      rw [hphase', hcount]
      rfl

/-- A commit over the count that was read is an exact write of the counter. -/
theorem writesOverRead_iff {s : Attempts}
    (h : AttemptsInv settings action clientIp start locks clocks s) (i : Nat) :
    WritesOverRead (throttleKey action clientIp) s i ↔
      ReadModifyWrite.Exact (counterOf (throttleKey action clientIp) s) i := by
  obtain ⟨row, hrow, _⟩ := h.shared
  have hcount : (counterOf (throttleKey action clientIp) s).shared = row.failureCount :=
    countOf_eq hrow
  constructor
  · intro hover read hread
    simp only [counterOf, List.getElem?_map, Option.map_eq_some_iff] at hread
    obtain ⟨p, hp, hphase⟩ := hread
    obtain ⟨old, new, hpc, rfl⟩ := phase_eq_holding.1 hphase
    rw [hcount]
    exact hover p hp old new hpc row hrow
  · intro hexact p hp old new hpc row' hrow'
    cases hrow.symm.trans hrow'
    rw [← hcount]
    refine hexact _ ?_
    simp only [counterOf, List.getElem?_map, Option.mem_def.1 hp, Option.map_some]
    rw [phase_eq_holding.2 ⟨old, new, hpc, rfl⟩]

/-! ## Complete runs -/

theorem committed_of_allDone {s : Attempts} (h : AllDone s) (key : Text) :
    ReadModifyWrite.committed (counterOf key s) = s.procs.length := by
  have hdone : ∀ phase ∈ s.procs.map Attempt.phase, ReadModifyWrite.Phase.done = phase := by
    intro phase hphase
    obtain ⟨p, hp, rfl⟩ := List.mem_map.1 hphase
    have hpc := h p hp
    unfold AttemptPc.isDone at hpc
    unfold Attempt.phase
    split at hpc
    · rename_i hpc'
      simp [hpc']
    · cases hpc
  rw [ReadModifyWrite.committed, counterOf, List.count_eq_length.2 hdone, List.length_map]

theorem run_length (settings : ThrottleSettings) (s : Attempts) (order : List Nat) :
    (Runs.run (attemptStep settings) s order).procs.length = s.procs.length := by
  induction order generalizing s with
  | nil => rfl
  | cons i order ih =>
    rw [Runs.run_cons, ih]
    exact Interleaving.length_step_move s i ()

/-- The invariants of a run below the limit. -/
structure BelowInv (settings : ThrottleSettings) (action clientIp : Text) (start : Time)
    (clocks : List Time) (count : Int) (s : Attempts) : Prop where
  attempts : AttemptsInv settings action clientIp start [] clocks s
  counter : ReadModifyWrite.Inv count (counterOf (throttleKey action clientIp) s)

/-- No failure is lost so far. -/
def NoneLost (key : Text) (count : Int) (s : Attempts) : Prop :=
  (counterOf key s).shared = count + ReadModifyWrite.committed (counterOf key s)

variable {count : Int} {s : Attempts} {i : Nat}

theorem BelowInv.step (h : BelowInv settings action clientIp start clocks count s)
    (hw : OneWindow settings start [] clocks)
    (hbelow : ¬ ReachesLimit settings (throttleKey action clientIp) s i) :
    BelowInv settings action clientIp start clocks count (attemptStep settings s i) := by
  refine ⟨inv_attemptStep hw h.attempts i fun hreached => absurd hreached hbelow, ?_⟩
  rcases abs_step hw h.attempts i with ⟨hsame, _⟩ | hstep
  · rw [hsame]
    exact h.counter
  · rw [hstep]
    exact ReadModifyWrite.inv_step h.counter i

theorem BelowInv.noneLost_iff (h : BelowInv settings action clientIp start clocks count s)
    (hw : OneWindow settings start [] clocks) :
    NoneLost (throttleKey action clientIp) count (attemptStep settings s i) ↔
      NoneLost (throttleKey action clientIp) count s ∧
        WritesOverRead (throttleKey action clientIp) s i := by
  rw [writesOverRead_iff h.attempts]
  unfold NoneLost
  rcases abs_step hw h.attempts i with ⟨hsame, hexact⟩ | hstep
  · rw [hsame]
    exact (and_iff_left hexact).symm
  · rw [hstep]
    exact ReadModifyWrite.eq_step_iff h.counter i

/-! ## At the limit: a lock -/

/-- The key is locked, or a commit that locks it is to come. -/
def LockDue (settings : ThrottleSettings) (key : Text) (s : Attempts) : Prop :=
  (∃ row ∈ s.shared.find key, row.lockedUntil.isSome = true) ∨
    ∃ p ∈ s.procs, ∃ old new, p.pc = .counted (some old) new ∧
      settings.failures ≤ old.failureCount + 1

theorem lockDue_of_reachesLimit
    (hreached : ReachesLimit settings (throttleKey action clientIp) s i)
    (h : AttemptsInv settings action clientIp start locks clocks s) :
    LockDue settings (throttleKey action clientIp) (attemptStep settings s i) := by
  obtain ⟨p, hp, hpc, row, hrow, hlimit⟩ := hreached
  have hfits := h.procs i p hp
  obtain ⟨hi, _⟩ := List.getElem?_eq_some_iff.1 hp
  have hkey : s.shared.find p.key = some row := by
    rw [Attempt.key, hfits.sameAction, hfits.sameIp]
    exact hrow
  refine Or.inr ⟨(p.move settings s.shared).1, ?_, row,
    .failed settings p.action p.clientIp p.now (some row), ?_, hlimit⟩
  · rw [attemptStep, Interleaving.step_move hp]
    exact List.mem_set hi _
  · simp only [Attempt.move, hpc, hkey]

/-- The commit of a failure at the limit. -/
theorem commit_locks {t : ThrottleTable} {p : Attempt}
    (h : AttemptFits settings action clientIp start locks clocks i t p)
    (hw : OneWindow settings start locks clocks)
    (hfits : TableFits (throttleKey action clientIp) start locks t) {old new : AuthThrottle}
    (hpc : p.pc = .counted (some old) new) (hlimit : settings.failures ≤ old.failureCount + 1) :
    ∃ row ∈ (p.move settings t).2.find (throttleKey action clientIp),
      row.lockedUntil.isSome = true := by
  obtain ⟨_, ⟨⟩, hold, rfl, _, hseen⟩ := h.counted _ _ hpc
  obtain ⟨row, hrow, _⟩ := hfits
  obtain ⟨t', hflush, hrow'⟩ : ∃ t', flushThrottle t (some old)
      (.failed settings action clientIp p.now (some old)) = some t' ∧ _ :=
    hold.flush hw h.clock hrow
  simp only [Attempt.move, hpc, hflush]
  exact ⟨_, hrow', lockAfter_locks hlimit fun hlock => hseen hlock row hrow⟩

theorem lockDue_step (hdue : LockDue settings (throttleKey action clientIp) s)
    (h : AttemptsInv settings action clientIp start locks clocks s)
    (hw : OneWindow settings start locks clocks)
    (hall : ∀ u ∈ clocks, u + settings.lock ∈ locks) :
    LockDue settings (throttleKey action clientIp) (attemptStep settings s i) := by
  cases hp : s.procs[i]? with
  | none =>
    rw [attemptStep, Interleaving.step_move_none hp]
    exact hdue
  | some p =>
    have hself := h.procs i p hp
    obtain ⟨_, ⟨row', hrow', _⟩, hlocked⟩ :=
      hself.move hw h.shared fun _ _ _ _ => hall p.now hself.clock
    rw [attemptStep, Interleaving.step_move hp]
    rcases hdue with hlock | ⟨q, hq, old, new, hpc, hlimit⟩
    · exact Or.inl ⟨row', hrow', hlocked hlock row' hrow'⟩
    · obtain ⟨j, hj⟩ := List.getElem?_of_mem hq
      by_cases hij : i = j
      · subst hij
        cases hp.symm.trans hj
        exact Or.inl (commit_locks hself hw h.shared hpc hlimit)
      · have hj' : (s.procs.set i (p.move settings s.shared).1)[j]? = some q := by
          rw [List.getElem?_set_ne hij]
          exact hj
        exact Or.inr ⟨q, List.mem_of_getElem? hj', old, new, hpc, hlimit⟩

/-! ## The theorem -/

/-- The locks that the attempts can set. -/
def locksOf (settings : ThrottleSettings) (clocks : List Time) : List Time :=
  clocks.map fun u => u + settings.lock

/-- A run in which an attempt reached the limit ends locked. -/
theorem locked_of_reachesLimit {t : ThrottleTable} {now : Time} {order : List Nat}
    (hw : OneWindow settings start (locksOf settings clocks) clocks)
    (hnow : ∀ lockedUntil ∈ locksOf settings clocks, now < lockedUntil)
    (h : AttemptsInv settings action clientIp start (locksOf settings clocks) clocks
      (attemptsStart t action clientIp clocks))
    (hdone : AllDone (attemptsRun settings t action clientIp clocks order))
    (hreached : ∃ q ∈ attemptsSteps settings t action clientIp clocks order,
      ReachesLimit settings (throttleKey action clientIp) q.1 q.2) :
    ∃ row ∈ (attemptsRun settings t action clientIp clocks order).shared.find
      (throttleKey action clientIp), (row.lockExpiry now).isSome = true := by
  have hall : ∀ u ∈ clocks, u + settings.lock ∈ locksOf settings clocks :=
    fun u hu => List.mem_map.2 ⟨u, hu, rfl⟩
  have hstep : ∀ s i,
      AttemptsInv settings action clientIp start (locksOf settings clocks) clocks s →
      AttemptsInv settings action clientIp start (locksOf settings clocks) clocks
        (attemptStep settings s i) :=
    fun s i hs => inv_attemptStep hw hs i fun _ p hp => hall p.now (hs.procs i p hp).clock
  have hreach : ∀ s i,
      AttemptsInv settings action clientIp start (locksOf settings clocks) clocks s →
      ReachesLimit settings (throttleKey action clientIp) s i →
      LockDue settings (throttleKey action clientIp) (attemptStep settings s i) :=
    fun s i hs hreached => lockDue_of_reachesLimit hreached hs
  have hkeep : ∀ s i,
      AttemptsInv settings action clientIp start (locksOf settings clocks) clocks s →
      LockDue settings (throttleKey action clientIp) s →
      LockDue settings (throttleKey action clientIp) (attemptStep settings s i) :=
    fun s i hs hdue => lockDue_step hdue hs hw hall
  obtain ⟨row', hrow', hfits⟩ := (Runs.inv_run hstep h order).shared
  rcases Runs.run_of_step hstep hreach hkeep h hreached with
    ⟨row, hrow, hlocked⟩ | ⟨p, hp, old, new, hpc, _⟩
  · cases hrow'.symm.trans hrow
    obtain ⟨lockedUntil, hlockedUntil⟩ := Option.isSome_iff_exists.1 hlocked
    have hlt : now < lockedUntil := hnow lockedUntil (hfits.lock lockedUntil hlockedUntil)
    exact ⟨row', hrow', by simp [AuthThrottle.lockExpiry, hlockedUntil, hlt]⟩
  · have hnot := hdone p hp
    rw [hpc] at hnot
    cases hnot

theorem counterOf_start {t : ThrottleTable} {row : AuthThrottle}
    (hrow : t.find (throttleKey action clientIp) = some row) :
    counterOf (throttleKey action clientIp) (attemptsStart t action clientIp clocks) =
      ⟨row.failureCount, List.replicate clocks.length .idle⟩ := by
  have hphases : (clocks.map (failingAttempt action clientIp)).map Attempt.phase =
      List.replicate clocks.length .idle := by
    rw [List.map_map]
    exact List.map_const'
  rw [counterOf, attemptsStart, hphases, countOf_eq hrow]

/-- A run in which no attempt reached the limit ends unlocked, with every failure counted exactly
when each commit wrote over the count that was read. -/
theorem counted_of_below {t : ThrottleTable} {row : AuthThrottle} {now : Time} {order : List Nat}
    (hrow : t.find (throttleKey action clientIp) = some row)
    (hfits : ThrottleFits (throttleKey action clientIp) start [] row)
    (hw : OneWindow settings start [] clocks)
    (hdone : AllDone (attemptsRun settings t action clientIp clocks order))
    (hbelow : ∀ q ∈ attemptsSteps settings t action clientIp clocks order,
      ¬ ReachesLimit settings (throttleKey action clientIp) q.1 q.2) :
    CountedOrLocked (throttleKey action clientIp) row.failureCount clocks.length now
        (attemptsRun settings t action clientIp clocks order).shared ↔
      ∀ q ∈ attemptsSteps settings t action clientIp clocks order,
        WritesOverRead (throttleKey action clientIp) q.1 q.2 := by
  have hcounter : counterOf (throttleKey action clientIp)
      (attemptsStart t action clientIp clocks) =
        ⟨row.failureCount, List.replicate clocks.length .idle⟩ := counterOf_start hrow
  have hstart : BelowInv settings action clientIp start clocks row.failureCount
      (attemptsStart t action clientIp clocks) := by
    refine ⟨attemptsStart_inv hrow hfits, ?_⟩
    rw [hcounter]
    exact ⟨by simp [ReadModifyWrite.committed, List.count_replicate], by simp⟩
  have hnone : NoneLost (throttleKey action clientIp) row.failureCount
      (attemptsStart t action clientIp clocks) := by
    rw [NoneLost, hcounter]
    simp [ReadModifyWrite.committed, List.count_replicate]
  have hstep : ∀ s i, BelowInv settings action clientIp start clocks row.failureCount s →
      ¬ ReachesLimit settings (throttleKey action clientIp) s i →
      BelowInv settings action clientIp start clocks row.failureCount (attemptStep settings s i) :=
    fun _ _ hs hlow => hs.step hw hlow
  have hexact : ∀ s i, BelowInv settings action clientIp start clocks row.failureCount s →
      ¬ ReachesLimit settings (throttleKey action clientIp) s i →
      (NoneLost (throttleKey action clientIp) row.failureCount (attemptStep settings s i) ↔
        NoneLost (throttleKey action clientIp) row.failureCount s ∧
          WritesOverRead (throttleKey action clientIp) s i) :=
    fun _ _ hs _ => hs.noneLost_iff hw
  have hiff := (Runs.run_iff_steps hstep hexact hstart hbelow).trans (and_iff_right hnone)
  have hfinal : BelowInv settings action clientIp start clocks row.failureCount
      (attemptsRun settings t action clientIp clocks order) :=
    Runs.inv_states_of_steps hstep hstart hbelow _ (Runs.run_mem_states _ _ _)
  obtain ⟨row', hrow', hfits'⟩ := hfinal.attempts.shared
  have hunlocked : row'.lockExpiry now = none := by
    cases hlocked : row'.lockedUntil with
    | none => simp [AuthThrottle.lockExpiry, hlocked]
    | some lockedUntil => cases hfits'.lock _ hlocked
  have hlength : (attemptsRun settings t action clientIp clocks order).procs.length =
      clocks.length := (run_length settings _ order).trans (List.length_map _)
  refine Iff.trans ?_ hiff
  rw [NoneLost, ← attemptsRun, committed_of_allDone hdone, hlength]
  have hcount : (counterOf (throttleKey action clientIp)
      (attemptsRun settings t action clientIp clocks order)).shared = row'.failureCount :=
    countOf_eq hrow'
  rw [hcount]
  constructor
  · rintro ⟨row'', hrow'', hlocked | hcounted⟩
    · cases hrow'.symm.trans hrow''
      rw [hunlocked] at hlocked
      cases hlocked
    · cases hrow'.symm.trans hrow''
      exact hcounted
  · exact fun hcounted => ⟨row', hrow', Or.inr hcounted⟩

/-- **No failure is lost, exactly when** an attempt reaches the limit or every commit writes over
the count that its request had read. -/
theorem failures_counted_iff (settings : ThrottleSettings) (t : ThrottleTable)
    (action clientIp : Text) (row : AuthThrottle) (clocks : List Time) (now : Time)
    (order : List Nat) (hrow : t.find (throttleKey action clientIp) = some row)
    (hopen : ∀ u ∈ now :: clocks, row.lockExpiry u = none ∧ row.startsOver settings u = false)
    (hlock : ∀ u ∈ clocks, ∀ v ∈ now :: clocks, v < u + settings.lock)
    (hdone : AllDone (attemptsRun settings t action clientIp clocks order)) :
    CountedOrLocked (throttleKey action clientIp) row.failureCount clocks.length now
        (attemptsRun settings t action clientIp clocks order).shared ↔
      (∃ q ∈ attemptsSteps settings t action clientIp clocks order,
        ReachesLimit settings (throttleKey action clientIp) q.1 q.2) ∨
      ∀ q ∈ attemptsSteps settings t action clientIp clocks order,
        WritesOverRead (throttleKey action clientIp) q.1 q.2 := by
  obtain ⟨hnowUnlocked, hnowOpen⟩ := hopen now List.mem_cons_self
  have hunlocked : row.lockedUntil = none := by
    cases hlocked : row.lockedUntil with
    | none => rfl
    | some lockedUntil =>
      simp [AuthThrottle.lockExpiry, hlocked] at hnowUnlocked
      simp [AuthThrottle.startsOver, hlocked, hnowUnlocked] at hnowOpen
  have hwindow : ∀ u ∈ clocks, u < row.windowStartedAt + settings.window := by
    intro u hu
    have hopen' := (hopen u (List.mem_cons_of_mem _ hu)).2
    simp only [AuthThrottle.startsOver, Bool.or_eq_false_iff, decide_eq_false_iff_not] at hopen'
    exact not_le.1 hopen'.2
  have hkey : row.key = throttleKey action clientIp := (Table.find_eq_some.1 hrow).2
  have hfits : ∀ locks, ThrottleFits (throttleKey action clientIp) row.windowStartedAt locks row :=
    fun locks => ⟨hkey, rfl, fun _ hlocked => by rw [hunlocked] at hlocked; cases hlocked⟩
  by_cases hreached : ∃ q ∈ attemptsSteps settings t action clientIp clocks order,
      ReachesLimit settings (throttleKey action clientIp) q.1 q.2
  · refine iff_of_true ?_ (Or.inl hreached)
    have hw : OneWindow settings row.windowStartedAt (locksOf settings clocks) clocks := by
      refine ⟨hwindow, fun u hu lockedUntil hmem => ?_⟩
      obtain ⟨v, hv, rfl⟩ := List.mem_map.1 hmem
      exact hlock v hv u (List.mem_cons_of_mem _ hu)
    have hnow : ∀ lockedUntil ∈ locksOf settings clocks, now < lockedUntil := by
      intro lockedUntil hmem
      obtain ⟨v, hv, rfl⟩ := List.mem_map.1 hmem
      exact hlock v hv now List.mem_cons_self
    obtain ⟨row', hrow', hlocked⟩ :=
      locked_of_reachesLimit hw hnow (attemptsStart_inv hrow (hfits _)) hdone hreached
    exact ⟨row', hrow', Or.inl hlocked⟩
  · rw [or_iff_right hreached]
    exact counted_of_below hrow (hfits []) ⟨hwindow, fun _ _ => nofun⟩ hdone
      fun q hq hlimit => hreached ⟨q, hq, hlimit⟩

/-! ### Two failures -/

/-- The default settings. -/
def sampleThrottleSettings : ThrottleSettings := ⟨5, 900, 900⟩

/-- One failure of `login` from the address "ip", at time 0. -/
def sampleThrottle : AuthThrottle :=
  ⟨"login:ip".toList, "login".toList, "ip".toList, 1, 0, none⟩

def sampleThrottles : ThrottleTable := ⟨[sampleThrottle], by simp⟩

/-- `failures_counted_iff` on two attempts, one after the other. -/
theorem failures_counted_iff_sequential :
    CountedOrLocked "login:ip".toList 1 2 3 (attemptsRun sampleThrottleSettings sampleThrottles
        "login".toList "ip".toList [1, 2] [0, 0, 0, 0, 1, 1, 1, 1]).shared ↔
      (∃ q ∈ attemptsSteps sampleThrottleSettings sampleThrottles "login".toList "ip".toList
          [1, 2] [0, 0, 0, 0, 1, 1, 1, 1],
        ReachesLimit sampleThrottleSettings "login:ip".toList q.1 q.2) ∨
      ∀ q ∈ attemptsSteps sampleThrottleSettings sampleThrottles "login".toList "ip".toList
          [1, 2] [0, 0, 0, 0, 1, 1, 1, 1],
        WritesOverRead "login:ip".toList q.1 q.2 :=
  failures_counted_iff sampleThrottleSettings sampleThrottles "login".toList "ip".toList
    sampleThrottle [1, 2] 3 [0, 0, 0, 0, 1, 1, 1, 1] (by decide) (by decide) (by decide) (by decide)

/-- Two attempts load the count before either commits: two failures, counted once. -/
theorem overlapping_failure_is_lost :
    (∀ u ∈ [3, 1, 2], sampleThrottle.lockExpiry u = none ∧
        sampleThrottle.startsOver sampleThrottleSettings u = false) ∧
      AllDone (attemptsRun sampleThrottleSettings sampleThrottles "login".toList "ip".toList
        [1, 2] [0, 1, 0, 1, 0, 1, 0, 1]) ∧
      ¬ CountedOrLocked "login:ip".toList 1 2 3 (attemptsRun sampleThrottleSettings
        sampleThrottles "login".toList "ip".toList [1, 2] [0, 1, 0, 1, 0, 1, 0, 1]).shared := by
  decide

end MeJournal
