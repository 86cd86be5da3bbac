import MeJournal.Lib.Runs

/-!
# Operations confined to a part of the state

`Alike` relates the states that an observer cannot tell apart, `hidden` is what the operation must
not touch.  The operation may run differently on the two sides (`op`, `op'`).

* `Confined` — from alike states the two sides give the same result and leave alike states; both
  leave `hidden` alone.
* `Confined.run_agree`, `Confined.run_hidden` — the same for every run of such operations.
-/

structure Confined {σ α η : Type*} (Alike : σ → σ → Prop) (hidden : σ → η) (op op' : σ → α × σ) :
    Prop where
  agree : ∀ s s', Alike s s' → (op s).1 = (op' s').1 ∧ Alike (op s).2 (op' s').2
  frame : ∀ s, hidden (op s).2 = hidden s
  frame' : ∀ s, hidden (op' s).2 = hidden s

namespace Confined

variable {σ α η ι : Type*} {Alike : σ → σ → Prop} {hidden : σ → η}

variable {op op' : ι → σ → α × σ} (h : ∀ i, Confined Alike hidden (op i) (op' i))
include h

/-- **Two runs of the same operations**, from alike states. -/
theorem run_agree {s s' : σ} (hs : Alike s s') (is : List ι) :
    (Runs.steps (fun s i => (op i s).2) s is).map (fun p => (op p.2 p.1).1) =
        (Runs.steps (fun s i => (op' i s).2) s' is).map (fun p => (op' p.2 p.1).1) ∧
      Alike (Runs.run (fun s i => (op i s).2) s is) (Runs.run (fun s i => (op' i s).2) s' is) := by
  induction is generalizing s s' with
  | nil => exact ⟨rfl, hs⟩
  | cons i is ih =>
    obtain ⟨hresult, hafter⟩ := (h i).agree s s' hs
    obtain ⟨hresults, hend⟩ := ih hafter
    rw [Runs.steps_cons, Runs.steps_cons, Runs.run_cons, Runs.run_cons, List.map_cons,
      List.map_cons, hresult, hresults]
    exact ⟨rfl, hend⟩

/-- A run leaves the hidden part alone. -/
theorem run_hidden (s : σ) (is : List ι) :
    hidden (Runs.run (fun s i => (op i s).2) s is) = hidden s :=
  Runs.inv_run (I := fun t => hidden t = hidden s) (fun t i ht => ((h i).frame t).trans ht) rfl is

end Confined
