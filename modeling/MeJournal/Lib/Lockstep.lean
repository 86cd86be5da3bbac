import MeJournal.Lib.Gen

/-!
# Generators in lockstep

Two generators on states of different types, run side by side from related states.  They yield the
same values and end the same way; the states after a return are related by `Q`, those after an
exception by `F`.

* `Gen.Lockstep` — the judgement.
* one rule for each construction: `lockstep_pure`, `lockstep_raise`, `lockstep_ofExcept`,
  `lockstep_emit`, `lockstep_modify`, `Lockstep.bind`, `Lockstep.handle`.
* `Lockstep.mono` — consequence.
-/

namespace Gen

variable {σ σ' ε υ α β : Type}

/-- The states after two runs that ended the same way. -/
def EndsBoth (Q : α → σ → σ' → Prop) (F : ε → σ → σ' → Prop) (s : σ) (s' : σ') :
    Except ε α → Prop
  | .ok a => Q a s s'
  | .error e => F e s s'

def Lockstep (P : σ → σ' → Prop) (g : Gen σ ε υ α) (g' : Gen σ' ε υ α)
    (Q : α → σ → σ' → Prop) (F : ε → σ → σ' → Prop) : Prop :=
  ∀ s s', P s s' → (g s).emitted = (g' s').emitted ∧ (g s).result = (g' s').result ∧
    EndsBoth Q F (g s).state (g' s').state (g s).result

section

variable {P P' : σ → σ' → Prop} {Q Q' : α → σ → σ' → Prop} {F F' : ε → σ → σ' → Prop}

/-! ## One rule for each construction -/

theorem lockstep_pure {a : α} (h : ∀ s s', P s s' → Q a s s') :
    Lockstep P (pure a : Gen σ ε υ α) (pure a) Q F :=
  fun s s' hP => ⟨rfl, rfl, h s s' hP⟩

theorem lockstep_raise {e : ε} (h : ∀ s s', P s s' → F e s s') :
    Lockstep P (raise e : Gen σ ε υ α) (raise e) Q F :=
  fun s s' hP => ⟨rfl, rfl, h s s' hP⟩

theorem lockstep_ofExcept {r : Except ε α} (hok : ∀ a, r = .ok a → ∀ s s', P s s' → Q a s s')
    (herror : ∀ e, r = .error e → ∀ s s', P s s' → F e s s') :
    Lockstep P (ofExcept r : Gen σ ε υ α) (ofExcept r) Q F := by
  cases r with
  | ok a => exact lockstep_pure (hok a rfl)
  | error e => exact lockstep_raise (herror e rfl)

theorem lockstep_emit {y : υ} {Q : Unit → σ → σ' → Prop} (h : ∀ s s', P s s' → Q () s s') :
    Lockstep P (emit y : Gen σ ε υ Unit) (emit y) Q F :=
  fun s s' hP => ⟨rfl, rfl, h s s' hP⟩

theorem lockstep_modify {f : σ → σ} {f' : σ' → σ'} {Q : Unit → σ → σ' → Prop}
    (h : ∀ s s', P s s' → Q () (f s) (f' s')) :
    Lockstep P (modify f : Gen σ ε υ Unit) (modify f') Q F :=
  fun s s' hP => ⟨rfl, rfl, h s s' hP⟩

/-- **Sequencing**: the first parts return the same value, which both second parts get. -/
theorem Lockstep.bind {g : Gen σ ε υ α} {g' : Gen σ' ε υ α} {f : α → Gen σ ε υ β}
    {f' : α → Gen σ' ε υ β} {Q : β → σ → σ' → Prop} {S : α → σ → σ' → Prop}
    (hg : Lockstep P g g' S F) (hf : ∀ a, Lockstep (S a) (f a) (f' a) Q F) :
    Lockstep P (g >>= f) (g' >>= f') Q F := by
  intro s s' hP
  obtain ⟨hemitted, hresult, hends⟩ := hg s s' hP
  cases hr : (g s).result with
  | ok a =>
    rw [hr] at hends
    obtain ⟨hemitted', hresult', hends'⟩ := hf a _ _ hends
    rw [bind_of_ok hr, bind_of_ok (hresult ▸ hr), hemitted, hemitted']
    exact ⟨rfl, hresult', hends'⟩
  | error e =>
    rw [hr] at hends
    rw [bind_of_error hr, bind_of_error (hresult ▸ hr)]
    exact ⟨hemitted, rfl, hends⟩

/-- **`try` and `except`.** -/
theorem Lockstep.handle {g : Gen σ ε υ α} {g' : Gen σ' ε υ α} {k : ε → Gen σ ε υ α}
    {k' : ε → Gen σ' ε υ α} (hg : Lockstep P g g' Q F')
    (hk : ∀ e, Lockstep (F' e) (k e) (k' e) Q F) :
    Lockstep P (g.handle k) (g'.handle k') Q F := by
  intro s s' hP
  obtain ⟨hemitted, hresult, hends⟩ := hg s s' hP
  cases hr : (g s).result with
  | ok a =>
    rw [hr] at hends
    rw [handle_of_ok hr, handle_of_ok (hresult ▸ hr), hr]
    exact ⟨hemitted, by rw [← hresult, hr], hends⟩
  | error e =>
    rw [hr] at hends
    obtain ⟨hemitted', hresult', hends'⟩ := hk e _ _ hends
    rw [handle_of_error hr, handle_of_error (hresult ▸ hr), hemitted, hemitted']
    exact ⟨rfl, hresult', hends'⟩

/-! ## Consequence -/

theorem Lockstep.mono {g : Gen σ ε υ α} {g' : Gen σ' ε υ α} (h : Lockstep P g g' Q F)
    (hP : ∀ s s', P' s s' → P s s') (hQ : ∀ a s s', Q a s s' → Q' a s s')
    (hF : ∀ e s s', F e s s' → F' e s s') : Lockstep P' g g' Q' F' := by
  intro s s' hP'
  obtain ⟨hemitted, hresult, hends⟩ := h s s' (hP s s' hP')
  refine ⟨hemitted, hresult, ?_⟩
  cases hr : (g s).result with
  | ok a =>
    rw [hr] at hends
    exact hQ a _ _ hends
  | error e =>
    rw [hr] at hends
    exact hF e _ _ hends

end

end Gen
