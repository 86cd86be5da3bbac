import Mathlib.Data.List.Basic

/-!
# Runs of a deterministic machine

A machine is a total step function `step : σ → ε → σ`.  Everything the environment decides
(the next request, which party moves, how a remote call ends) is part of the event, so that
quantifying over event lists quantifies over every behaviour.

* `states step s es` — every state of the run, the first one included; `steps step s es` —
  every step, as the state it starts from and its event.
* `inv_run`, `inv_states` — an invariant kept by one step holds along the whole run.
* `inv_states_of_steps` — the same when a step keeps it only under a condition that the
  steps of the run all meet.
* `run_of_step` — what a step brings about and the others keep.
* `exists_run` — a measure that some step lowers is run down.
* `pairwise_states`, `pairwise_steps` — a preorder that every step respects orders the states of
  the run, and the end of each step before the start of every later one.
* `map_states_eq`, `map_steps_eq` — two machines that show the same keep showing the same.
* `run_view`, `steps_view` — a view that steps by itself.
* `states_iff_steps_of`, `states_iff_steps`, `run_iff_steps` — a property of the states (of the
  last state) holds exactly when the steps meet a condition, given that one step says so.
-/

namespace Runs

variable {σ ε : Type*} (step : σ → ε → σ)

/-- The state after all of `es`. -/
def run (s : σ) (es : List ε) : σ := es.foldl step s

/-- Every state of the run. -/
def states : σ → List ε → List σ
  | s, [] => [s]
  | s, e :: es => s :: states (step s e) es

/-- Every step of the run: the state before it and its event. -/
def steps : σ → List ε → List (σ × ε)
  | _, [] => []
  | s, e :: es => (s, e) :: steps (step s e) es

@[simp] theorem run_nil (s : σ) : run step s [] = s := rfl

@[simp] theorem run_cons (s : σ) (e : ε) (es : List ε) :
    run step s (e :: es) = run step (step s e) es := rfl

theorem run_append (s : σ) (es fs : List ε) :
    run step s (es ++ fs) = run step (run step s es) fs := List.foldl_append

@[simp] theorem states_nil (s : σ) : states step s [] = [s] := rfl

@[simp] theorem states_cons (s : σ) (e : ε) (es : List ε) :
    states step s (e :: es) = s :: states step (step s e) es := rfl

@[simp] theorem steps_nil (s : σ) : steps step s [] = [] := rfl

@[simp] theorem steps_cons (s : σ) (e : ε) (es : List ε) :
    steps step s (e :: es) = (s, e) :: steps step (step s e) es := rfl

theorem steps_append (s : σ) (es fs : List ε) :
    steps step s (es ++ fs) = steps step s es ++ steps step (run step s es) fs := by
  induction es generalizing s with
  | nil => rfl
  | cons e es ih => rw [List.cons_append, steps_cons, steps_cons, ih, run_cons, List.cons_append]

theorem start_mem_states (s : σ) (es : List ε) : s ∈ states step s es := by
  cases es <;> simp

theorem run_mem_states (s : σ) (es : List ε) : run step s es ∈ states step s es := by
  induction es generalizing s with
  | nil => simp
  | cons e es ih => exact List.mem_cons_of_mem _ (ih (step s e))

variable {step}

/-! ## Invariants -/

/-- **Run rule.** What one step keeps holds of the last state of the run. -/
theorem inv_run {I : σ → Prop} (hstep : ∀ s e, I s → I (step s e)) {s : σ} (h : I s)
    (es : List ε) : I (run step s es) := by
  induction es generalizing s with
  | nil => exact h
  | cons e es ih => exact ih (hstep s e h)

theorem inv_states {I : σ → Prop} (hstep : ∀ s e, I s → I (step s e)) {s : σ} (h : I s)
    (es : List ε) : ∀ t ∈ states step s es, I t := by
  induction es generalizing s with
  | nil => simpa using h
  | cons e es ih =>
    intro t ht
    rcases List.mem_cons.1 ht with rfl | ht
    · exact h
    · exact ih (hstep s e h) t ht

/-- **Conditional run rule.** Steps that meet `C` keep `I`; a run of such steps stays in `I`. -/
theorem inv_states_of_steps {I : σ → Prop} {C : σ → ε → Prop}
    (hstep : ∀ s e, I s → C s e → I (step s e)) {s : σ} (h : I s) {es : List ε}
    (hC : ∀ p ∈ steps step s es, C p.1 p.2) : ∀ t ∈ states step s es, I t := by
  induction es generalizing s with
  | nil => simpa using h
  | cons e es ih =>
    intro t ht
    have hfirst : C s e := hC (s, e) List.mem_cons_self
    rcases List.mem_cons.1 ht with rfl | ht
    · exact h
    · exact ih (hstep s e h hfirst) (fun p hp => hC p (List.mem_cons_of_mem _ hp)) t ht

/-- What some step of the run brings about, and every step keeps, holds at the end. -/
theorem run_of_step {I L : σ → Prop} {C : σ → ε → Prop} (hstep : ∀ s e, I s → I (step s e))
    (hreach : ∀ s e, I s → C s e → L (step s e)) (hkeep : ∀ s e, I s → L s → L (step s e)) {s : σ}
    (h : I s) {es : List ε} (hC : ∃ p ∈ steps step s es, C p.1 p.2) : L (run step s es) := by
  induction es generalizing s with
  | nil => simp at hC
  | cons e es ih =>
    have hboth : ∀ t f, I t ∧ L t → I (step t f) ∧ L (step t f) :=
      fun t f ht => ⟨hstep t f ht.1, hkeep t f ht.1 ht.2⟩
    obtain ⟨p, hp, hC⟩ := hC
    rcases List.mem_cons.1 hp with rfl | hp
    · exact (inv_run hboth ⟨hstep _ _ h, hreach _ _ h hC⟩ es).2
    · exact ih (hstep s e h) ⟨p, hp, hC⟩

/-- **Frame rule.** A preorder that every step respects relates every state of the run to every
later one. -/
theorem pairwise_states {F : σ → σ → Prop} (hframe : ∀ s e, F s (step s e)) (hrefl : ∀ s, F s s)
    (htrans : ∀ s t u, F s t → F t u → F s u) (s : σ) (es : List ε) :
    (states step s es).Pairwise F := by
  induction es generalizing s with
  | nil => exact List.pairwise_singleton F s
  | cons e es ih =>
    have hreach : ∀ t ∈ states step (step s e) es, F (step s e) t :=
      inv_states (fun t f ht => htrans _ _ _ ht (hframe t f)) (hrefl _) es
    refine List.pairwise_cons.2 ⟨fun t ht => ?_, ih (step s e)⟩
    exact htrans _ _ _ (hframe s e) (hreach t ht)

theorem fst_mem_states {s : σ} {es : List ε} {p : σ × ε} (h : p ∈ steps step s es) :
    p.1 ∈ states step s es := by
  induction es generalizing s with
  | nil => cases h
  | cons e es ih =>
    rcases List.mem_cons.1 h with rfl | h
    · exact start_mem_states step s (e :: es)
    · exact List.mem_cons_of_mem _ (ih h)

theorem snd_mem {s : σ} {es : List ε} {p : σ × ε} (h : p ∈ steps step s es) : p.2 ∈ es := by
  induction es generalizing s with
  | nil => cases h
  | cons e es ih =>
    rcases List.mem_cons.1 h with rfl | h
    · exact List.mem_cons_self
    · exact List.mem_cons_of_mem _ (ih h)

/-- The frame rule for steps: what a step leaves, related to where each later step starts. -/
theorem pairwise_steps {F : σ → σ → Prop} (hframe : ∀ s e, F s (step s e)) (hrefl : ∀ s, F s s)
    (htrans : ∀ s t u, F s t → F t u → F s u) (s : σ) (es : List ε) :
    (steps step s es).Pairwise fun p q => F (step p.1 p.2) q.1 := by
  induction es generalizing s with
  | nil => exact List.Pairwise.nil
  | cons e es ih =>
    have hreach : ∀ t ∈ states step (step s e) es, F (step s e) t :=
      inv_states (fun t f ht => htrans _ _ _ ht (hframe t f)) (hrefl _) es
    exact List.pairwise_cons.2 ⟨fun q hq => hreach _ (fst_mem_states hq), ih (step s e)⟩

/-- **Progress rule.** From a state of `I`, events of `A` that lower a measure lead to `D`. -/
theorem exists_run {I D : σ → Prop} {A : ε → Prop} (μ : σ → Nat)
    (hstep : ∀ s, I s → ¬ D s → ∃ e, A e ∧ I (step s e) ∧ μ (step s e) < μ s) {s : σ} (h : I s) :
    ∃ es, (∀ e ∈ es, A e) ∧ D (run step s es) := by
  induction hm : μ s using Nat.strongRecOn generalizing s with
  | ind m ih =>
    by_cases hD : D s
    · exact ⟨[], by simp, hD⟩
    · obtain ⟨e, hA, hI, hlt⟩ := hstep s h hD
      obtain ⟨es, hAs, hrun⟩ := ih _ (hm ▸ hlt) hI rfl
      exact ⟨e :: es, by simpa using ⟨hA, hAs⟩, hrun⟩

/-! ## Two machines -/

section Compare

variable {σ' α β : Type*} {step' : σ' → ε → σ'} {f : σ → α} {f' : σ' → α}

/-- **Two-run rule.** Views that agree before every pair of steps agree along the two runs. -/
theorem map_states_eq (hstep : ∀ s s' e, f s = f' s' → f (step s e) = f' (step' s' e)) {s : σ}
    {s' : σ'} (h : f s = f' s') (es : List ε) :
    (states step s es).map f = (states step' s' es).map f' := by
  induction es generalizing s s' with
  | nil => simp [h]
  | cons e es ih =>
    rw [states_cons, states_cons, List.map_cons, List.map_cons, h, ih (hstep s s' e h)]

/-- What the steps of the two runs put out agrees too. -/
theorem map_steps_eq {out : σ → ε → β} {out' : σ' → ε → β}
    (hstep : ∀ s s' e, f s = f' s' → f (step s e) = f' (step' s' e))
    (hout : ∀ s s' e, f s = f' s' → out s e = out' s' e) {s : σ} {s' : σ'} (h : f s = f' s')
    (es : List ε) :
    (steps step s es).map (fun p => out p.1 p.2) =
      (steps step' s' es).map (fun p => out' p.1 p.2) := by
  induction es generalizing s s' with
  | nil => rfl
  | cons e es ih =>
    rw [steps_cons, steps_cons, List.map_cons, List.map_cons, hout s s' e h, ih (hstep s s' e h)]

end Compare

section View

variable {σ' : Type*} {step' : σ' → ε → σ'} {f : σ → σ'}

/-- A view of the state that steps by itself: its run is the view of the run. -/
theorem run_view (h : ∀ s e, f (step s e) = step' (f s) e) (s : σ) (es : List ε) :
    f (run step s es) = run step' (f s) es :=
  (List.foldl_hom f fun s e => (h s e).symm).symm

theorem steps_view (h : ∀ s e, f (step s e) = step' (f s) e) (s : σ) (es : List ε) :
    (steps step s es).map (fun p => (f p.1, p.2)) = steps step' (f s) es := by
  induction es generalizing s with
  | nil => rfl
  | cons e es ih => rw [steps_cons, List.map_cons, ih, h, steps_cons]

end View

/-! ## Exact conditions -/

/-- In a run of steps that meet `D`, a state property holds along the whole run exactly when every
step meets `C`. -/
theorem states_iff_steps_of {I P : σ → Prop} {C D : σ → ε → Prop}
    (hstep : ∀ s e, I s → D s e → C s e → I (step s e))
    (hexact : ∀ s e, I s → D s e → P s → (P (step s e) ↔ C s e)) {s : σ} (hI : I s) (hP : P s)
    {es : List ε} (hD : ∀ p ∈ steps step s es, D p.1 p.2) :
    (∀ t ∈ states step s es, P t) ↔ ∀ p ∈ steps step s es, C p.1 p.2 := by
  induction es generalizing s with
  | nil => simpa using hP
  | cons e es ih =>
    simp only [steps_cons, List.forall_mem_cons] at hD
    obtain ⟨hfirst, hD⟩ := hD
    simp only [states_cons, steps_cons, List.forall_mem_cons]
    constructor
    · rintro ⟨_, hrest⟩
      have hnext : P (step s e) := hrest _ (start_mem_states step _ es)
      have hC : C s e := (hexact s e hI hfirst hP).1 hnext
      exact ⟨hC, (ih (hstep s e hI hfirst hC) hnext hD).1 hrest⟩
    · rintro ⟨hC, hrest⟩
      have hnext : P (step s e) := (hexact s e hI hfirst hP).2 hC
      exact ⟨hP, (ih (hstep s e hI hfirst hC) hnext hD).2 hrest⟩

/-- A state property holds along the whole run exactly when every step meets `C`. -/
theorem states_iff_steps {I P : σ → Prop} {C : σ → ε → Prop}
    (hstep : ∀ s e, I s → I (step s e))
    (hexact : ∀ s e, I s → P s → (P (step s e) ↔ C s e)) {s : σ} (hI : I s) (hP : P s)
    (es : List ε) :
    (∀ t ∈ states step s es, P t) ↔ ∀ p ∈ steps step s es, C p.1 p.2 :=
  states_iff_steps_of (D := fun _ _ => True) (fun s e h _ _ => hstep s e h)
    (fun s e h _ => hexact s e h) hI hP fun _ _ => trivial

/-- A property that a step can only lose holds at the end exactly when it held at the start and
no step loses it, in a run of steps that meet `C`. -/
theorem run_iff_steps {I P : σ → Prop} {C X : σ → ε → Prop}
    (hstep : ∀ s e, I s → C s e → I (step s e))
    (hexact : ∀ s e, I s → C s e → (P (step s e) ↔ P s ∧ X s e)) {s : σ} (hI : I s)
    {es : List ε} (hC : ∀ p ∈ steps step s es, C p.1 p.2) :
    P (run step s es) ↔ P s ∧ ∀ p ∈ steps step s es, X p.1 p.2 := by
  induction es generalizing s with
  | nil => simp
  | cons e es ih =>
    have hfirst : C s e := hC (s, e) List.mem_cons_self
    have hrest : ∀ p ∈ steps step (step s e) es, C p.1 p.2 :=
      fun p hp => hC p (List.mem_cons_of_mem _ hp)
    rw [run_cons, ih (hstep s e hI hfirst) hrest, hexact s e hI hfirst, steps_cons,
      List.forall_mem_cons, and_assoc]

end Runs
