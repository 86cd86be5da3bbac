import MeJournal.Lib.Interleaving
import Mathlib.Data.List.Count

/-!
# Increments by read, compute and write

Processes increment a shared counter without a lock: each reads it once and later writes what
it read plus one.  `committed` counts the processes that have written.

* `inv_step` — the counter never runs ahead of the writes, and a process that holds the largest
  possible value holds the current one.
* `eq_step_iff` — no increment is lost so far, exactly when none was before and the step is not
  a write over a value other than the one read.
-/

namespace ReadModifyWrite

/-- How far a process is. -/
inductive Phase where
  | idle
  | holding (read : Int)
  | done
  deriving DecidableEq

abbrev State := Interleaving.System Int Phase

def move (_ : Unit) : Phase → Int → Phase × Int
  | .idle, value => (.holding value, value)
  | .holding read, _ => (.done, read + 1)
  | .done, value => (.done, value)

def step (s : State) (i : Nat) : State := Interleaving.step move s (.move i ())

/-- The number of processes that have written. -/
def committed (s : State) : Nat := s.procs.count .done

/-- If process `i` writes next, the counter is what it read. -/
def Exact (s : State) (i : Nat) : Prop :=
  ∀ read, s.procs[i]? = some (.holding read) → s.shared = read

structure Inv (start : Int) (s : State) : Prop where
  le : s.shared ≤ start + committed s
  held : ∀ read, Phase.holding read ∈ s.procs →
    read ≤ start + committed s ∧ (read = start + committed s → s.shared = read)

variable {start : Int} {s : State} {i : Nat}

/-- A process reads. -/
theorem step_idle (h : s.procs[i]? = some .idle) :
    (step s i).shared = s.shared ∧ (step s i).procs = s.procs.set i (.holding s.shared) ∧
      committed (step s i) = committed s := by
  obtain ⟨hi, hget⟩ := List.getElem?_eq_some_iff.1 h
  have hstep : step s i = ⟨s.shared, s.procs.set i (.holding s.shared)⟩ :=
    Interleaving.step_move h ()
  rw [hstep]
  refine ⟨rfl, rfl, ?_⟩
  simp only [committed, List.count_set hi, hget]
  rfl

/-- A process writes. -/
theorem step_holding {read : Int} (h : s.procs[i]? = some (.holding read)) :
    (step s i).shared = read + 1 ∧ (step s i).procs = s.procs.set i .done ∧
      committed (step s i) = committed s + 1 := by
  obtain ⟨hi, hget⟩ := List.getElem?_eq_some_iff.1 h
  have hstep : step s i = ⟨read + 1, s.procs.set i .done⟩ := Interleaving.step_move h ()
  rw [hstep]
  refine ⟨rfl, rfl, ?_⟩
  simp only [committed, List.count_set hi, hget]
  rfl

theorem step_other (h : ∀ p, s.procs[i]? = some p → p = .done) : step s i = s := by
  cases hp : s.procs[i]? with
  | none => exact Interleaving.step_move_none hp ()
  | some p =>
    have hdone := h p hp
    subst hdone
    obtain ⟨hi, hget⟩ := List.getElem?_eq_some_iff.1 hp
    have hstep : step s i = ⟨s.shared, s.procs.set i .done⟩ := Interleaving.step_move hp ()
    rw [hstep, ← hget, List.set_getElem_self]

/-! ## The invariant -/

theorem inv_step (h : Inv start s) (i : Nat) : Inv start (step s i) := by
  have hle := h.le
  cases hp : s.procs[i]? with
  | none => rwa [step_other (by simp [hp])]
  | some p =>
    cases p with
    | idle =>
      obtain ⟨hshared, hprocs, hcommitted⟩ := step_idle hp
      refine ⟨by rw [hshared, hcommitted]; exact hle, fun read hread => ?_⟩
      rw [hshared, hcommitted]
      rw [hprocs] at hread
      rcases List.mem_or_eq_of_mem_set hread with hread | hread
      · exact h.held read hread
      · cases hread
        exact ⟨hle, fun _ => rfl⟩
    | holding r =>
      obtain ⟨hshared, hprocs, hcommitted⟩ := step_holding hp
      have hr := (h.held r (List.mem_of_getElem? hp)).1
      refine ⟨by rw [hshared, hcommitted]; omega, fun read hread => ?_⟩
      rw [hshared, hcommitted]
      rw [hprocs] at hread
      rcases List.mem_or_eq_of_mem_set hread with hread | hread
      · have hread' := (h.held read hread).1
        omega
      · cases hread
    | done => rwa [step_other (by simp [hp])]

/-- **No increment is lost** so far, exactly when none was before and the step writes over
the value it read. -/
theorem eq_step_iff (h : Inv start s) (i : Nat) :
    (step s i).shared = start + committed (step s i) ↔
      s.shared = start + committed s ∧ Exact s i := by
  unfold Exact
  cases hp : s.procs[i]? with
  | none =>
    have hother : step s i = s := step_other (by simp [hp])
    simp [hother]
  | some p =>
    cases p with
    | idle =>
      obtain ⟨hshared, _, hcommitted⟩ := step_idle hp
      simp [hshared, hcommitted]
    | holding r =>
      obtain ⟨hshared, _, hcommitted⟩ := step_holding hp
      obtain ⟨hr, hfull⟩ := h.held r (List.mem_of_getElem? hp)
      rw [hshared, hcommitted]
      simp only [Option.some.injEq, Phase.holding.injEq, forall_eq']
      constructor
      · intro heq
        have hvalue := hfull (by omega)
        omega
      · rintro ⟨heq, hvalue⟩
        omega
    | done =>
      have hother : step s i = s := step_other (by simp [hp])
      simp [hother]

end ReadModifyWrite
