import MeJournal.Lib.Runs
import Mathlib.Algebra.Order.Monoid.Defs
import Mathlib.Data.List.Induction
import Mathlib.Algebra.Order.Group.Int
import Mathlib.Algebra.Order.Ring.Int

/-!
# A limiter that locks

Failures are counted in windows of a fixed length, each opened by its first failure.  The failure
that reaches the limit locks; a try before the lock runs out is refused and not counted, a success
forgets the window.  Times are any linearly ordered additive monoid.

* `fits_step` — a try keeps the count within the limit, and a lock set exactly at the limit.
* `run_locked`, `outcome_of_le` — until its end the lock stays as it is, then it refuses no more.
* `failuresIn_le` — how many failures an interval as long as the window can hold.
-/

namespace Limiter

/-- The settings. -/
structure Policy (T : Type*) where
  limit : Int
  window : T
  lock : T

/-- The window that is open. -/
structure Row (T : Type*) where
  count : Int
  start : T
  lockedUntil : Option T
  deriving DecidableEq

/-- A try, and whether it is good. -/
structure Try (T : Type*) where
  now : T
  ok : Bool
  deriving DecidableEq

inductive Outcome (T : Type*) where
  | refused (lockedUntil : T)
  | failed (lock : Option T)
  | passed
  deriving DecidableEq

def Outcome.isFailed {T : Type*} : Outcome T → Bool
  | .failed _ => true
  | _ => false

variable {T : Type*} [AddCommMonoid T] [LinearOrder T]

/-- The lock, if it has not run out. -/
def Row.lock (r : Row T) (now : T) : Option T := r.lockedUntil.filter fun u => now < u

namespace Policy

variable (p : Policy T)

/-- The lock or the window has run out. -/
def startsOver (now : T) (r : Row T) : Bool :=
  r.lockedUntil.any (fun u => u ≤ now) || r.start + p.window ≤ now

def counted (now : T) : Option (Row T) → Row T
  | none => ⟨1, now, none⟩
  | some r => if p.startsOver now r then ⟨1, now, none⟩ else { r with count := r.count + 1 }

/-- The window after a failure. -/
def fail (now : T) (s : Option (Row T)) : Row T :=
  let r := p.counted now s
  if p.limit ≤ r.count then { r with lockedUntil := some (now + p.lock) } else r

/-- A try that is not refused. -/
def record (s : Option (Row T)) (a : Try T) : Option (Row T) :=
  if a.ok then none else some (p.fail a.now s)

def outcome (s : Option (Row T)) (a : Try T) : Outcome T :=
  match s.bind fun r => r.lock a.now with
  | some u => .refused u
  | none => if a.ok then .passed else .failed (p.fail a.now s).lockedUntil

def step (s : Option (Row T)) (a : Try T) : Option (Row T) :=
  match s.bind fun r => r.lock a.now with
  | some _ => s
  | none => p.record s a

end Policy

variable {p : Policy T} {s : Option (Row T)} {a : Try T}

/-- The window after tries none of which was refused. -/
def Policy.tally (p : Policy T) (as : List (Try T)) : Option (Row T) := as.foldl p.record none

theorem Policy.tally_concat (p : Policy T) (as : List (Try T)) (a : Try T) :
    p.tally (as ++ [a]) = p.record (p.tally as) a := List.foldl_append ..

/-! ## One try -/

/-- **What a try does**: it is refused, forgets the window or counts. -/
theorem step_cases :
    (∃ r u, s = some r ∧ r.lockedUntil = some u ∧ a.now < u ∧
      p.outcome s a = .refused u ∧ p.step s a = s) ∨
    (∀ r ∈ s, ∀ u ∈ r.lockedUntil, u ≤ a.now) ∧
      (a.ok = true ∧ p.outcome s a = .passed ∧ p.step s a = none ∨
        a.ok = false ∧ p.outcome s a = .failed (p.fail a.now s).lockedUntil ∧
          p.step s a = some (p.fail a.now s)) := by
  cases hlock : s.bind fun r => r.lock a.now with
  | some u =>
    left
    obtain ⟨r, rfl, hr⟩ := Option.bind_eq_some_iff.1 hlock
    obtain ⟨hu, hlt⟩ := Option.filter_eq_some_iff.1 hr
    exact ⟨r, u, rfl, hu, of_decide_eq_true hlt, by rw [Policy.outcome, hlock],
      by rw [Policy.step, hlock]⟩
  | none =>
    right
    refine ⟨fun r hr u hu => ?_, ?_⟩
    · rw [Option.bind_eq_none_iff] at hlock
      have hfilter := Option.filter_eq_none_iff.1 (hlock r hr) u hu
      exact not_lt.1 (by simpa using hfilter)
    · rw [Policy.outcome, Policy.step, hlock]
      cases hok : a.ok <;> simp [Policy.record, hok]

/-- A count from one to the limit, and a lock when it is at the limit. -/
structure Row.Fits (p : Policy T) (r : Row T) : Prop where
  pos : 1 ≤ r.count
  le : r.count ≤ p.limit
  locked : r.lockedUntil.isSome = true ↔ r.count = p.limit

/-- The two ways to count a failure, when no lock is running. -/
theorem counted_cases (p : Policy T) (hrun : ∀ r ∈ s, ∀ u ∈ r.lockedUntil, u ≤ a.now) :
    (∀ r ∈ s, r.lockedUntil.isSome = true ∨ r.start + p.window ≤ a.now) ∧
        p.counted a.now s = ⟨1, a.now, none⟩ ∨
      ∃ r, s = some r ∧ r.lockedUntil = none ∧ a.now < r.start + p.window ∧
        p.counted a.now s = { r with count := r.count + 1 } := by
  cases s with
  | none => exact Or.inl ⟨by simp, rfl⟩
  | some r =>
    by_cases hover : p.startsOver a.now r = true
    · left
      refine ⟨?_, by rw [Policy.counted, if_pos hover]⟩
      rintro r ⟨⟩
      rw [Policy.startsOver, Bool.or_eq_true, decide_eq_true_eq] at hover
      refine hover.imp_left fun hany => ?_
      cases hu : r.lockedUntil with
      | none => simp [hu] at hany
      | some u => rfl
    · right
      have hnot := hover
      rw [Policy.startsOver, Bool.or_eq_true, not_or, decide_eq_true_eq, not_le] at hnot
      refine ⟨r, rfl, ?_, hnot.2, by rw [Policy.counted, if_neg hover]⟩
      cases hu : r.lockedUntil with
      | none => rfl
      | some u =>
        have hle := hrun r rfl u hu
        exact (hnot.1 (by simpa [hu] using hle)).elim

theorem counted_lockedUntil (p : Policy T) (hrun : ∀ r ∈ s, ∀ u ∈ r.lockedUntil, u ≤ a.now) :
    (p.counted a.now s).lockedUntil = none := by
  rcases counted_cases p hrun with ⟨_, heq⟩ | ⟨r, rfl, hnone, _, heq⟩
  · rw [heq]
  · rw [heq]
    exact hnone

/-- **A failure that is counted** keeps the count within the limit. -/
theorem fits_fail (hlimit : 1 ≤ p.limit) (h : ∀ r ∈ s, r.Fits p)
    (hrun : ∀ r ∈ s, ∀ u ∈ r.lockedUntil, u ≤ a.now) : (p.fail a.now s).Fits p := by
  have hnone := counted_lockedUntil p hrun
  have hcounted : 1 ≤ (p.counted a.now s).count ∧ (p.counted a.now s).count ≤ p.limit := by
    rcases counted_cases p hrun with ⟨_, heq⟩ | ⟨r, rfl, hnone, _, heq⟩
    · rw [heq]
      exact ⟨le_rfl, hlimit⟩
    · have hr := h r rfl
      have hne : r.count ≠ p.limit := fun hcount => by
        have hsome := hr.locked.2 hcount
        rw [hnone] at hsome
        cases hsome
      have hpos := hr.pos
      have hle := hr.le
      rw [heq]
      exact ⟨by simp only; omega, by simp only; omega⟩
  obtain ⟨hpos, hle⟩ := hcounted
  rw [Policy.fail]
  split
  · rename_i hreach
    exact ⟨hpos, hle, by simpa using le_antisymm hle hreach⟩
  · rename_i hreach
    exact ⟨hpos, hle, by simpa [hnone] using fun heq => hreach heq.ge⟩

/-- **A try keeps the count within the limit, and a lock set exactly at the limit.** -/
theorem fits_step (hlimit : 1 ≤ p.limit) (h : ∀ r ∈ s, r.Fits p) (a : Try T) :
    ∀ r ∈ p.step s a, r.Fits p := by
  rcases step_cases (p := p) (s := s) (a := a) with
    ⟨_, _, _, _, _, _, heq⟩ | ⟨hrun, ⟨_, _, heq⟩ | ⟨_, _, heq⟩⟩
  · rwa [heq]
  · simp [heq]
  · rw [heq]
    rintro r ⟨⟩
    exact fits_fail hlimit h hrun

theorem fits_run (hlimit : 1 ≤ p.limit) (as : List (Try T)) :
    ∀ r ∈ Runs.run p.step none as, r.Fits p :=
  Runs.inv_run (I := fun s => ∀ r ∈ s, Row.Fits p r) (fun _ a hs => fits_step hlimit hs a)
    (by simp) as

/-! ## The lock -/

/-- A failure that locks does so for the time the policy says. -/
theorem lockedUntil_fail (hrun : ∀ r ∈ s, ∀ u ∈ r.lockedUntil, u ≤ a.now) {u : T}
    (h : (p.fail a.now s).lockedUntil = some u) : u = a.now + p.lock := by
  have hnone := counted_lockedUntil p hrun
  rw [Policy.fail] at h
  split at h
  · exact (Option.some.inj h).symm
  · rw [hnone] at h
    cases h

/-- The failure that reaches the limit locks. -/
theorem lockedUntil_of_limit (h : p.limit ≤ (p.fail a.now s).count) :
    (p.fail a.now s).lockedUntil = some (a.now + p.lock) := by
  rw [Policy.fail] at h ⊢
  split at h
  · rename_i hreach
    rw [if_pos hreach]
  · rename_i hreach
    exact (hreach h).elim

/-- The lock that a counted failure leaves. -/
theorem lockedUntil_step (hfailed : (p.outcome s a).isFailed = true) {r : Row T}
    (hr : p.step s a = some r) {u : T} (h : r.lockedUntil = some u) : u = a.now + p.lock := by
  rcases step_cases (p := p) (s := s) (a := a) with
    ⟨_, _, _, _, _, hout, _⟩ | ⟨hrun, ⟨_, hout, _⟩ | ⟨_, _, heq⟩⟩
  · rw [hout] at hfailed
    cases hfailed
  · rw [hout] at hfailed
    cases hfailed
  · obtain rfl := Option.some.inj (heq.symm.trans hr)
    exact lockedUntil_fail hrun h

/-- Before its end the lock refuses, and nothing changes. -/
theorem step_locked {r : Row T} {u : T} (hlock : r.lockedUntil = some u) (h : a.now < u) :
    p.outcome (some r) a = .refused u ∧ p.step (some r) a = some r := by
  rcases step_cases (p := p) (s := some r) (a := a) with
    ⟨r', u', hr, hu, _, hout, hstep⟩ | ⟨hrun, _⟩
  · obtain rfl := Option.some.inj hr
    obtain rfl := Option.some.inj (hlock.symm.trans hu)
    exact ⟨hout, hstep⟩
  · exact absurd h (not_lt.2 (hrun r rfl u hlock))

/-- **Tries before its end leave the lock as it is.** -/
theorem run_locked {r : Row T} {u : T} (hlock : r.lockedUntil = some u) {as : List (Try T)}
    (h : ∀ a ∈ as, a.now < u) : Runs.run p.step (some r) as = some r := by
  induction as with
  | nil => rfl
  | cons a as ih =>
    rw [Runs.run_cons, (step_locked hlock (h a List.mem_cons_self)).2]
    exact ih fun b hb => h b (List.mem_cons_of_mem _ hb)

/-- From its end on it refuses no more. -/
theorem outcome_of_le {r : Row T} {u : T} (hlock : r.lockedUntil = some u) (h : u ≤ a.now) :
    ∀ v, p.outcome (some r) a ≠ .refused v := by
  intro v hv
  rcases step_cases (p := p) (s := some r) (a := a) with
    ⟨r', u', hr, hu, hlt, _⟩ | ⟨_, ⟨_, hout, _⟩ | ⟨_, hout, _⟩⟩
  · obtain rfl := Option.some.inj hr
    obtain rfl := Option.some.inj (hlock.symm.trans hu)
    exact absurd h (not_le.2 hlt)
  · simp [hout] at hv
  · simp [hout] at hv

/-! ## Failures in an interval -/

/-- The try falls in the interval as long as the window that starts at `b`. -/
def Within (p : Policy T) (b : T) (a : Try T) : Prop := b ≤ a.now ∧ a.now < b + p.window

instance (b : T) (a : Try T) : Decidable (Within p b a) := inferInstanceAs (Decidable (_ ∧ _))

/-- The failures of the run that were counted in the interval. -/
def failuresIn (p : Policy T) (b : T) (as : List (Try T)) : Nat :=
  (Runs.steps p.step none as).countP fun q =>
    decide (Within p b q.2) && (p.outcome q.1 q.2).isFailed

/-- What the open window says about the `c` failures counted in the interval that starts at `b`. -/
structure Bounded (p : Policy T) (b : T) (c : Int) (s : Option (Row T)) : Prop where
  none : s = none → c = 0
  inside : ∀ r ∈ s, b ≤ r.start → c ≤ max 0 (p.limit - 2) + r.count
  before : ∀ r ∈ s, r.start < b → c ≤ r.count - 1
  lock : ∀ r ∈ s, ∀ u ∈ r.lockedUntil, u < b + p.window → c = 0

/-- Either way the interval holds no more than one window and all but two of another. -/
theorem Bounded.le {b : T} {c : Int} (hlimit : 1 ≤ p.limit) (hfits : ∀ r ∈ s, r.Fits p)
    (h : Bounded p b c s) : c ≤ max p.limit (2 * p.limit - 2) := by
  cases s with
  | none =>
    rw [h.none rfl]
    omega
  | some r =>
    have hle := (hfits r rfl).le
    rcases le_or_gt b r.start with hin | hbefore
    · have hc := h.inside r rfl hin
      omega
    · have hc := h.before r rfl hbefore
      omega

section Bound

variable [IsOrderedAddMonoid T] {b : T} {c : Int}

/-- Where a window is opened in the interval, the one before it reached the limit before the
interval or left room for two. -/
theorem bounded_of_startsOver (hfits : ∀ r ∈ s, r.Fits p)
    (hrun : ∀ r ∈ s, ∀ u ∈ r.lockedUntil, u ≤ a.now) (hnow : a.now < b + p.window)
    (hover : ∀ r ∈ s, r.lockedUntil.isSome = true ∨ r.start + p.window ≤ a.now)
    (h : Bounded p b c s) : c ≤ max 0 (p.limit - 2) := by
  cases s with
  | none =>
    rw [h.none rfl]
    exact le_max_left _ _
  | some r =>
    cases hu : r.lockedUntil with
    | some u =>
      rw [h.lock r rfl u hu ((hrun r rfl u hu).trans_lt hnow)]
      exact le_max_left _ _
    | none =>
      have hend : r.start + p.window ≤ a.now := (hover r rfl).resolve_left (by simp [hu])
      have hstart : r.start < b := lt_of_not_ge fun hle =>
        absurd (add_le_add_left hle p.window) (not_le.2 (hend.trans_lt hnow))
      have hc := h.before r rfl hstart
      have hle := (hfits r rfl).le
      have hne : r.count ≠ p.limit := fun heq => by
        have hsome := (hfits r rfl).locked.2 heq
        rw [hu] at hsome
        cases hsome
      omega

/-- **A failure keeps the bound**, with one more failure when it falls in the interval. -/
theorem bounded_fail (hlock : p.window ≤ p.lock) (hfits : ∀ r ∈ s, r.Fits p)
    (hrun : ∀ r ∈ s, ∀ u ∈ r.lockedUntil, u ≤ a.now) (hnow : a.now < b + p.window)
    (hbefore : a.now < b → c = 0) (h : Bounded p b c s) :
    Bounded p b (c + if b ≤ a.now then 1 else 0) (some (p.fail a.now s)) := by
  have hone : (if b ≤ a.now then 1 else 0 : Int) ≤ 1 := by split <;> omega
  have hout : a.now < b → c + (if b ≤ a.now then 1 else 0 : Int) = 0 := fun hlt => by
    rw [if_neg (not_le.2 hlt), hbefore hlt]
    rfl
  have hstart : (p.fail a.now s).start = (p.counted a.now s).start := by
    rw [Policy.fail]
    split <;> rfl
  have hcount : (p.fail a.now s).count = (p.counted a.now s).count := by
    rw [Policy.fail]
    split <;> rfl
  refine ⟨by simp, ?_, ?_, ?_⟩
  · rintro r ⟨⟩ hle
    rw [hstart] at hle
    rw [hcount]
    rcases counted_cases p hrun with ⟨hover, heq⟩ | ⟨r, rfl, hnone, _, heq⟩
    · rw [heq] at hle ⊢
      have hc := bounded_of_startsOver hfits hrun hnow hover h
      simp only
      omega
    · rw [heq] at hle ⊢
      have hin := h.inside r rfl hle
      simp only
      omega
  · rintro r ⟨⟩ hlt
    rw [hstart] at hlt
    rw [hcount]
    rcases counted_cases p hrun with ⟨_, heq⟩ | ⟨r, rfl, hnone, _, heq⟩
    · rw [heq] at hlt ⊢
      rw [hout hlt]
      rfl
    · rw [heq] at hlt ⊢
      have hin := h.before r rfl hlt
      simp only
      omega
  · rintro r ⟨⟩ u hu hlt
    have hu := lockedUntil_fail hrun hu
    apply hout
    by_contra hle
    rw [hu] at hlt
    exact absurd (add_le_add (not_lt.1 hle) hlock) (not_le.2 hlt)

/-- **One try keeps the bound**: counted failures add up, and no success falls in the interval. -/
theorem bounded_step (hlock : p.window ≤ p.lock) (hfits : ∀ r ∈ s, r.Fits p)
    (hnow : a.now < b + p.window) (hbefore : a.now < b → c = 0)
    (hok : Within p b a → p.outcome s a ≠ .passed) (h : Bounded p b c s) :
    Bounded p b (c + if Within p b a ∧ (p.outcome s a).isFailed = true then 1 else 0)
      (p.step s a) := by
  rcases step_cases (p := p) (s := s) (a := a) with
    ⟨_, _, _, _, _, hout, heq⟩ | ⟨hrun, ⟨_, hout, heq⟩ | ⟨_, hout, heq⟩⟩
  · rw [heq, hout]
    simpa [Outcome.isFailed] using h
  · have hc : c = 0 := hbefore (lt_of_not_ge fun hle => hok ⟨hle, hnow⟩ hout)
    rw [heq, hout, hc]
    exact ⟨by simp [Outcome.isFailed], by simp, by simp, by simp⟩
  · have hiff : (Within p b a ∧ (p.outcome s a).isFailed = true) ↔ b ≤ a.now := by
      rw [hout]
      exact ⟨fun hin => hin.1.1, fun hle => ⟨⟨hle, hnow⟩, rfl⟩⟩
    rw [heq]
    simp only [hiff]
    exact bounded_fail hlock hfits hrun hnow hbefore h

/-- **Between successes an interval as long as the window holds at most `max N (2N - 2)` counted
failures.** -/
theorem failuresIn_le (hlimit : 1 ≤ p.limit) (hlock : p.window ≤ p.lock) {as : List (Try T)}
    (hsorted : as.Pairwise fun x y => x.now ≤ y.now)
    (hok : ∀ q ∈ Runs.steps p.step none as, Within p b q.2 → p.outcome q.1 q.2 ≠ .passed) :
    (failuresIn p b as : Int) ≤ max p.limit (2 * p.limit - 2) := by
  suffices hboth : (failuresIn p b as : Int) ≤ max p.limit (2 * p.limit - 2) ∧
      ((∀ x ∈ as, x.now < b + p.window) →
        Bounded p b (failuresIn p b as) (Runs.run p.step none as)) from hboth.1
  induction as using List.reverseRecOn with
  | nil =>
    have hzero : failuresIn p b [] = 0 := rfl
    rw [hzero]
    exact ⟨by omega, fun _ => ⟨by simp, by simp, by simp, by simp⟩⟩
  | append_singleton as a ih =>
    obtain ⟨hbeg, _, hlast⟩ := List.pairwise_append.1 hsorted
    have hearlier : ∀ x ∈ as, x.now ≤ a.now := fun x hx => hlast x hx a List.mem_cons_self
    rw [Runs.steps_append] at hok
    obtain ⟨hle, hbounded⟩ := ih hbeg fun q hq => hok q (List.mem_append_left _ hq)
    have hcount : (failuresIn p b (as ++ [a]) : Int) = failuresIn p b as +
        if Within p b a ∧ (p.outcome (Runs.run p.step none as) a).isFailed = true then 1
        else 0 := by
      rw [failuresIn, Runs.steps_append, List.countP_append, ← failuresIn, Runs.steps_cons,
        Runs.steps_nil, List.countP_singleton]
      simp
    have hrun : Runs.run p.step none (as ++ [a]) = p.step (Runs.run p.step none as) a :=
      Runs.run_append ..
    rw [hcount, hrun]
    by_cases hnow : a.now < b + p.window
    · have hfits : ∀ r ∈ Runs.run p.step none as, r.Fits p := fits_run hlimit as
      have hzero : a.now < b → (failuresIn p b as : Int) = 0 := fun hlt => by
        rw [Int.natCast_eq_zero, failuresIn, List.countP_eq_zero]
        intro q hq
        have hout : ¬Within p b q.2 := fun hin =>
          absurd (hin.1.trans (hearlier q.2 (Runs.snd_mem hq))) (not_le.2 hlt)
        simp [hout]
      have hnext := bounded_step hlock hfits hnow hzero
        (hok (_, a) (List.mem_append_right _ List.mem_cons_self))
        (hbounded fun x hx => (hearlier x hx).trans_lt hnow)
      exact ⟨hnext.le hlimit (fits_step hlimit hfits a), fun _ => hnext⟩
    · rw [if_neg fun hin => hnow hin.1.2]
      exact ⟨by omega, fun hall => absurd (hall a (by simp)) hnow⟩

end Bound

end Limiter
