import MeJournal.Lib.Gen

/-!
# Triples for generators

Pre- and postconditions of a generator, on the values yielded so far and the state.  Beside them,
`allowed` says of every value whether it may be yielded after what came before.

* `Gen.Triple` — from `P`, only allowed values are yielded, a return ends in `Q`, an exception in
  `E`.
* one rule for each construction: `triple_pure`, `triple_raise`, `triple_ofExcept`, `triple_read`,
  `triple_modify`, `triple_emit`, `Triple.bind`, `Triple.map`, `Triple.handle`.
* `Triple.pre`, `Triple.post`, `triple_and` — consequence, and a fact taken out of the
  precondition.
-/

namespace Gen

variable {σ ε υ α β : Type}

/-- Each value of the list is allowed after `h` and the values before it. -/
def AllAllowed (allowed : List υ → υ → Prop) : List υ → List υ → Prop
  | _, [] => True
  | h, y :: ys => allowed h y ∧ AllAllowed allowed (h ++ [y]) ys

variable {allowed : List υ → υ → Prop}

theorem allAllowed_append {h ys zs : List υ} :
    AllAllowed allowed h (ys ++ zs) ↔
      AllAllowed allowed h ys ∧ AllAllowed allowed (h ++ ys) zs := by
  induction ys generalizing h with
  | nil => simp [AllAllowed]
  | cons y ys ih => simp [AllAllowed, ih, and_assoc]

theorem allAllowed_of_forall (hall : ∀ h y, allowed h y) (h ys : List υ) :
    AllAllowed allowed h ys := by
  induction ys generalizing h with
  | nil => trivial
  | cons y ys ih => exact ⟨hall h y, ih _⟩

/-- A value in the middle. -/
theorem AllAllowed.mid {h pre post : List υ} {y : υ}
    (hall : AllAllowed allowed h (pre ++ y :: post)) : allowed (h ++ pre) y :=
  (allAllowed_append.1 hall).2.1

/-- How a run ends. -/
def Ends (Q : α → List υ → σ → Prop) (E : ε → List υ → σ → Prop) (h : List υ) (s : σ) :
    Except ε α → Prop
  | .ok a => Q a h s
  | .error e => E e h s

def Triple (allowed : List υ → υ → Prop) (P : List υ → σ → Prop) (g : Gen σ ε υ α)
    (Q : α → List υ → σ → Prop) (E : ε → List υ → σ → Prop) : Prop :=
  ∀ h s, P h s → AllAllowed allowed h (g s).emitted ∧
    Ends Q E (h ++ (g s).emitted) (g s).state (g s).result

section

variable {P P' : List υ → σ → Prop} {Q Q' : α → List υ → σ → Prop} {E E' : ε → List υ → σ → Prop}

/-! ## One rule for each construction -/

/-- A run that yields nothing. -/
theorem triple_of_silent {g : Gen σ ε υ α} (hsilent : ∀ s, (g s).emitted = [])
    (h : ∀ ys s, P ys s → Ends Q E ys (g s).state (g s).result) : Triple allowed P g Q E := by
  intro ys s hP
  rw [hsilent s, List.append_nil]
  exact ⟨trivial, h ys s hP⟩

theorem triple_pure {a : α} (h : ∀ ys s, P ys s → Q a ys s) :
    Triple allowed P (pure a : Gen σ ε υ α) Q E :=
  triple_of_silent (fun _ => rfl) h

theorem triple_raise {e : ε} (h : ∀ ys s, P ys s → E e ys s) :
    Triple allowed P (raise e : Gen σ ε υ α) Q E :=
  triple_of_silent (fun _ => rfl) h

theorem triple_ofExcept {r : Except ε α} (hok : ∀ a, r = .ok a → ∀ ys s, P ys s → Q a ys s)
    (herror : ∀ e, r = .error e → ∀ ys s, P ys s → E e ys s) :
    Triple allowed P (ofExcept r : Gen σ ε υ α) Q E := by
  cases r with
  | ok a => exact triple_pure (hok a rfl)
  | error e => exact triple_raise (herror e rfl)

theorem triple_read {f : σ → α} (h : ∀ ys s, P ys s → Q (f s) ys s) :
    Triple allowed P (read f : Gen σ ε υ α) Q E :=
  triple_of_silent (fun _ => rfl) h

theorem triple_modify {f : σ → σ} {Q : Unit → List υ → σ → Prop}
    (h : ∀ ys s, P ys s → Q () ys (f s)) :
    Triple allowed P (modify f : Gen σ ε υ Unit) Q E :=
  triple_of_silent (fun _ => rfl) h

theorem triple_emit {y : υ} {Q : Unit → List υ → σ → Prop}
    (h : ∀ ys s, P ys s → allowed ys y ∧ Q () (ys ++ [y]) s) :
    Triple allowed P (emit y : Gen σ ε υ Unit) Q E :=
  fun ys s hP => ⟨⟨(h ys s hP).1, trivial⟩, (h ys s hP).2⟩

/-- **Sequencing.** -/
theorem Triple.bind {g : Gen σ ε υ α} {f : α → Gen σ ε υ β} {Q : β → List υ → σ → Prop}
    {S : α → List υ → σ → Prop} (hg : Triple allowed P g S E)
    (hf : ∀ a, Triple allowed (S a) (f a) Q E) : Triple allowed P (g >>= f) Q E := by
  intro ys s hP
  obtain ⟨hallowed, hends⟩ := hg ys s hP
  cases hr : (g s).result with
  | ok a =>
    rw [hr] at hends
    obtain ⟨hallowed', hends'⟩ := hf a _ _ hends
    rw [bind_of_ok hr]
    exact ⟨allAllowed_append.2 ⟨hallowed, hallowed'⟩, by simpa using hends'⟩
  | error e =>
    rw [hr] at hends
    rw [bind_of_error hr]
    exact ⟨hallowed, hends⟩

theorem Triple.map {g : Gen σ ε υ α} {f : α → β} {Q : β → List υ → σ → Prop}
    (hg : Triple allowed P g (fun a => Q (f a)) E) : Triple allowed P (f <$> g) Q E :=
  hg.bind fun _ => triple_pure fun _ _ hQ => hQ

/-- **`try` and `except`.** -/
theorem Triple.handle {g : Gen σ ε υ α} {k : ε → Gen σ ε υ α} (hg : Triple allowed P g Q E')
    (hk : ∀ e, Triple allowed (E' e) (k e) Q E) : Triple allowed P (g.handle k) Q E := by
  intro ys s hP
  obtain ⟨hallowed, hends⟩ := hg ys s hP
  cases hr : (g s).result with
  | ok a =>
    rw [handle_of_ok hr, hr]
    rw [hr] at hends
    exact ⟨hallowed, hends⟩
  | error e =>
    rw [hr] at hends
    obtain ⟨hallowed', hends'⟩ := hk e _ _ hends
    rw [handle_of_error hr]
    exact ⟨allAllowed_append.2 ⟨hallowed, hallowed'⟩, by simpa using hends'⟩

/-! ## Consequence -/

theorem Triple.pre {g : Gen σ ε υ α} (h : Triple allowed P g Q E)
    (hP : ∀ ys s, P' ys s → P ys s) : Triple allowed P' g Q E :=
  fun ys s hP' => h ys s (hP ys s hP')

theorem Triple.post {g : Gen σ ε υ α} (h : Triple allowed P g Q E)
    (hQ : ∀ a ys s, Q a ys s → Q' a ys s) : Triple allowed P g Q' E := by
  intro ys s hP
  obtain ⟨hallowed, hends⟩ := h ys s hP
  refine ⟨hallowed, ?_⟩
  cases hr : (g s).result with
  | ok a =>
    rw [hr] at hends
    exact hQ a _ _ hends
  | error e =>
    rw [hr] at hends
    exact hends

/-- A fact that does not depend on the state. -/
theorem triple_and {φ : Prop} {g : Gen σ ε υ α} (h : φ → Triple allowed P g Q E) :
    Triple allowed (fun ys s => φ ∧ P ys s) g Q E :=
  fun ys s hP => h hP.1 ys s hP.2

end

end Gen
