import MeJournal.Lib.Runs
import Mathlib.Algebra.GroupWithZero.Nat

/-!
# Processes over a shared state

Processes take atomic moves on a shared state, in any order; new processes may arrive at any
time.  What a move reads from outside is its input `ι`.

* `step` — one event; with `Runs` an event list is an interleaving.
* `Inv` — an invariant of the shared state together with a property of each process.
* `inv_step` — **the interference rule**: a move keeps the invariant and its own property, and
  does not disturb the property of the others.
* `forall_procs_move` — a property that every process has is lost only by the one that moves.
-/

namespace Interleaving

variable {σ π ι : Type}

structure System (σ π : Type) where
  shared : σ
  procs : List π

inductive Event (π ι : Type) where
  | arrive (p : π)
  | move (i : Nat) (input : ι)

variable (move : ι → π → σ → π × σ)

/-- One event; a move of a process that does not exist changes nothing. -/
def step (s : System σ π) : Event π ι → System σ π
  | .arrive p => ⟨s.shared, s.procs ++ [p]⟩
  | .move i input =>
    match s.procs[i]? with
    | none => s
    | some p =>
      let r := move input p s.shared
      ⟨r.2, s.procs.set i r.1⟩

/-- An invariant `I` of the shared state, and a property `Q` of each process at its position. -/
structure Inv (I : σ → Prop) (Q : Nat → σ → π → Prop) (s : System σ π) : Prop where
  shared : I s.shared
  procs : ∀ (i : Nat) (p : π), s.procs[i]? = some p → Q i s.shared p

variable {move}

theorem step_arrive (s : System σ π) (p : π) :
    step move s (.arrive p) = ⟨s.shared, s.procs ++ [p]⟩ := rfl

theorem step_move {s : System σ π} {i : Nat} {p : π} (h : s.procs[i]? = some p) (input : ι) :
    step move s (.move i input) =
      ⟨(move input p s.shared).2, s.procs.set i (move input p s.shared).1⟩ := by
  simp only [step, h]

theorem step_move_none {s : System σ π} {i : Nat} (h : s.procs[i]? = none) (input : ι) :
    step move s (.move i input) = s := by
  simp only [step, h]

/-- **The interference rule.** -/
theorem inv_step {I : σ → Prop} {Q : Nat → σ → π → Prop} {s : System σ π} {e : Event π ι}
    (h : Inv I Q s)
    (harrive : ∀ p, e = .arrive p → Q s.procs.length s.shared p)
    (hmove : ∀ i input p, e = .move i input → s.procs[i]? = some p →
      I (move input p s.shared).2 ∧ Q i (move input p s.shared).2 (move input p s.shared).1 ∧
        ∀ j q, j ≠ i → s.procs[j]? = some q → Q j (move input p s.shared).2 q) :
    Inv I Q (step move s e) := by
  cases e with
  | arrive p =>
    rw [step_arrive]
    refine ⟨h.shared, fun i q hq => ?_⟩
    rcases Nat.lt_trichotomy i s.procs.length with hi | rfl | hi
    · rw [List.getElem?_append_left hi] at hq
      exact h.procs i q hq
    · simp only [List.getElem?_concat_length, Option.some.injEq] at hq
      exact hq ▸ harrive p rfl
    · rw [List.getElem?_eq_none (by simp; omega)] at hq
      cases hq
  | move i input =>
    cases hp : s.procs[i]? with
    | none =>
      rw [step_move_none hp]
      exact h
    | some p =>
      obtain ⟨hshared, hself, hothers⟩ := hmove i input p rfl hp
      rw [step_move hp]
      refine ⟨hshared, fun j q hq => ?_⟩
      by_cases hij : j = i
      · subst hij
        have hlt := (List.getElem?_eq_some_iff.1 hp).1
        rw [List.getElem?_set_self hlt] at hq
        cases hq
        exact hself
      · rw [List.getElem?_set_ne (Ne.symm hij)] at hq
        exact hothers j q hij hq

/-! ## A property of every process -/

theorem forall_procs_arrive {T : π → Prop} (s : System σ π) (p : π) :
    (∀ q ∈ (step move s (.arrive p)).procs, T q) ↔ (∀ q ∈ s.procs, T q) ∧ T p := by
  simp only [step_arrive, List.forall_mem_append, List.forall_mem_singleton]

/-- Only the process that moves can lose it. -/
theorem forall_procs_move {T : π → Prop} {s : System σ π} (h : ∀ q ∈ s.procs, T q) (i : Nat)
    (input : ι) :
    (∀ q ∈ (step move s (.move i input)).procs, T q) ↔
      ∀ p, s.procs[i]? = some p → T (move input p s.shared).1 := by
  cases hp : s.procs[i]? with
  | none =>
    rw [step_move_none hp]
    exact iff_of_true h (by simp)
  | some p =>
    rw [step_move hp]
    have hlt := (List.getElem?_eq_some_iff.1 hp).1
    simp only [Option.some.injEq, forall_eq']
    constructor
    · intro hall
      exact hall _ (List.mem_set hlt _)
    · intro hself q hq
      rcases List.mem_or_eq_of_mem_set hq with hq | rfl
      · exact h q hq
      · exact hself

/-- The process that moved is there. -/
theorem moved_mem {s : System σ π} {i : Nat} {p : π} (h : s.procs[i]? = some p) (input : ι) :
    (move input p s.shared).1 ∈ (step move s (.move i input)).procs := by
  rw [step_move h]
  exact List.mem_set (List.getElem?_eq_some_iff.1 h).1 _

/-- A process other than the one that moved is still there. -/
theorem mem_of_ne {s : System σ π} {i : Nat} {p q : π} (h : s.procs[i]? = some p) (input : ι)
    (hq : q ∈ s.procs) (hne : q ≠ p) : q ∈ (step move s (.move i input)).procs := by
  obtain ⟨j, hj⟩ := List.mem_iff_getElem?.1 hq
  have hij : i ≠ j := by
    rintro rfl
    exact hne (Option.some.inj (hj.symm.trans h))
  rw [step_move h]
  refine List.mem_of_getElem? (i := j) ?_
  rw [List.getElem?_set_ne hij, hj]

/-- What all processes have left to do changes by what the moved one has left. -/
theorem sum_step_move {s : System σ π} {i : Nat} {p : π} (h : s.procs[i]? = some p) (input : ι)
    (rank : π → Nat) :
    ((step move s (.move i input)).procs.map rank).sum + rank p =
      (s.procs.map rank).sum + rank (move input p s.shared).1 := by
  simp only [step_move h]
  generalize (move input p s.shared).1 = p'
  generalize s.procs = procs at h ⊢
  induction procs generalizing i with
  | nil => simp at h
  | cons q procs ih =>
    cases i with
    | zero =>
      simp only [List.getElem?_cons_zero, Option.some.injEq] at h
      subst h
      simp only [List.set_cons_zero, List.map_cons, List.sum_cons]
      omega
    | succ i =>
      have hrest := ih (by simpa using h)
      simp only [List.set_cons_succ, List.map_cons, List.sum_cons]
      omega

/-- Moves neither add nor remove processes. -/
theorem length_step_move (s : System σ π) (i : Nat) (input : ι) :
    (step move s (.move i input)).procs.length = s.procs.length := by
  cases hp : s.procs[i]? with
  | none => rw [step_move_none hp]
  | some p => rw [step_move hp, List.length_set]

end Interleaving
