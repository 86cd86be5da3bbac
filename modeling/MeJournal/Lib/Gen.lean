import Mathlib.Data.List.Basic

/-!
# Generators

A generator runs from a state: it yields values, may update the state, and ends by returning
or by raising.  Values yielded before an exception stay yielded.

* `Gen` with `emit`, `raise`, `ofExcept`, `modify`, `read`, sequencing and `handle` (the
  `try` / `except` of a whole block).
* `bind_of_ok`, `bind_of_error`, `bind_of_silent`, `ok_of_bind` — how a sequence runs.
* `handle_of_ok`, `handle_of_error` — the handler runs after what the block yielded.
* `Keeps part` — the part of the state that a generator leaves alone; `Over part` — a generator
  that runs as another one does on a part of its state.
* `Within P Q` — what is yielded satisfies `P`, what is raised satisfies `Q`; closed under the
  constructions.  `Terminal P Q R` — the same, with a possible last value in `R`.
-/

/-- One run of a generator. -/
structure GenRun (σ ε υ α : Type) where
  emitted : List υ
  result : Except ε α
  state : σ

/-- A generator of values `υ` with state `σ`, exceptions `ε` and return value `α`. -/
def Gen (σ ε υ α : Type) : Type := σ → GenRun σ ε υ α

namespace Gen

variable {σ ε υ α β : Type}

/-- Yield nothing, return `a`. -/
def ret (a : α) : Gen σ ε υ α := fun s => ⟨[], .ok a, s⟩

/-- Sequencing; an exception skips the rest. -/
def andThen (g : Gen σ ε υ α) (f : α → Gen σ ε υ β) : Gen σ ε υ β := fun s =>
  match g s with
  | ⟨ys, .ok a, s'⟩ =>
    let r := f a s'
    ⟨ys ++ r.emitted, r.result, r.state⟩
  | ⟨ys, .error e, s'⟩ => ⟨ys, .error e, s'⟩

instance : Monad (Gen σ ε υ) where
  pure := ret
  bind := andThen

/-- `yield y`. -/
def emit (y : υ) : Gen σ ε υ Unit := fun s => ⟨[y], .ok (), s⟩

/-- `raise e`. -/
def raise (e : ε) : Gen σ ε υ α := fun s => ⟨[], .error e, s⟩

/-- A call that returns or raises. -/
def ofExcept (r : Except ε α) : Gen σ ε υ α := fun s => ⟨[], r, s⟩

def modify (f : σ → σ) : Gen σ ε υ Unit := fun s => ⟨[], .ok (), f s⟩

/-- What `f` reads of the state. -/
def read (f : σ → α) : Gen σ ε υ α := fun s => ⟨[], .ok (f s), s⟩

/-- `try: g` / `except: handler`. -/
def handle (g : Gen σ ε υ α) (handler : ε → Gen σ ε υ α) : Gen σ ε υ α := fun s =>
  match g s with
  | ⟨ys, .ok a, s'⟩ => ⟨ys, .ok a, s'⟩
  | ⟨ys, .error e, s'⟩ =>
    let r := handler e s'
    ⟨ys ++ r.emitted, r.result, r.state⟩

@[simp] theorem emit_run (y : υ) (s : σ) : (emit y : Gen σ ε υ Unit) s = ⟨[y], .ok (), s⟩ := rfl

theorem bind_of_ok {g : Gen σ ε υ α} {s : σ} {a : α} (h : (g s).result = .ok a)
    (f : α → Gen σ ε υ β) :
    (g >>= f) s = ⟨(g s).emitted ++ (f a (g s).state).emitted, (f a (g s).state).result,
      (f a (g s).state).state⟩ := by
  change andThen g f s = _
  unfold andThen
  split
  · rename_i ys b s' hg
    rw [hg] at h ⊢
    cases h
    rfl
  · rename_i ys e s' hg
    rw [hg] at h
    cases h

theorem bind_of_error {g : Gen σ ε υ α} {s : σ} {e : ε} (h : (g s).result = .error e)
    (f : α → Gen σ ε υ β) : (g >>= f) s = ⟨(g s).emitted, .error e, (g s).state⟩ := by
  change andThen g f s = _
  unfold andThen
  split
  · rename_i ys b s' hg
    rw [hg] at h
    cases h
  · rename_i ys e' s' hg
    rw [hg] at h ⊢
    cases h
    rfl

/-- A first part that yields nothing. -/
theorem bind_of_silent {g : Gen σ ε υ α} {s s' : σ} {a : α} (h : g s = ⟨[], .ok a, s'⟩)
    (f : α → Gen σ ε υ β) : (g >>= f) s = f a s' := by
  rw [bind_of_ok (congrArg GenRun.result h), h]
  rfl

/-- A sequence that returns has run both parts. -/
theorem ok_of_bind {g : Gen σ ε υ α} {f : α → Gen σ ε υ β} {s : σ} {b : β}
    (h : ((g >>= f) s).result = .ok b) :
    ∃ a, (g s).result = .ok a ∧ (f a (g s).state).result = .ok b := by
  cases hr : (g s).result with
  | ok a =>
    rw [bind_of_ok hr] at h
    exact ⟨a, rfl, h⟩
  | error e =>
    rw [bind_of_error hr] at h
    cases h

theorem handle_of_ok {g : Gen σ ε υ α} {s : σ} {a : α} (h : (g s).result = .ok a)
    (handler : ε → Gen σ ε υ α) : g.handle handler s = g s := by
  unfold handle
  split
  · rename_i hg
    exact hg.symm
  · rename_i hg
    rw [hg] at h
    cases h

theorem handle_of_error {g : Gen σ ε υ α} {s : σ} {e : ε} (h : (g s).result = .error e)
    (handler : ε → Gen σ ε υ α) :
    g.handle handler s =
      ⟨(g s).emitted ++ (handler e (g s).state).emitted, (handler e (g s).state).result,
        (handler e (g s).state).state⟩ := by
  unfold handle
  split
  · rename_i hg
    rw [hg] at h
    cases h
  · rename_i hg
    rw [hg] at h ⊢
    cases h
    rfl

theorem bind_assoc {γ : Type} (g : Gen σ ε υ α) (f : α → Gen σ ε υ β) (k : β → Gen σ ε υ γ) :
    (g >>= f) >>= k = g >>= fun a => f a >>= k := by
  funext s
  cases hg : (g s).result with
  | error e =>
    have hgf : ((g >>= f) s).result = .error e := by rw [bind_of_error hg]
    rw [bind_of_error hgf, bind_of_error hg, bind_of_error hg]
  | ok a =>
    cases hf : (f a (g s).state).result with
    | error e =>
      have hgf : ((g >>= f) s).result = .error e := by rw [bind_of_ok hg, hf]
      rw [bind_of_error hgf, bind_of_ok hg, bind_of_ok hg, bind_of_error hf]
    | ok b =>
      have hgf : ((g >>= f) s).result = .ok b := by rw [bind_of_ok hg, hf]
      rw [bind_of_ok hgf, bind_of_ok hg, bind_of_ok hg, bind_of_ok hf, List.append_assoc]

/-! ## What a generator leaves alone -/

variable {γ : Type}

/-- `g` never changes the part `part` of the state. -/
def Keeps (part : σ → γ) (g : Gen σ ε υ α) : Prop := ∀ s, part (g s).state = part s

variable {part : σ → γ}

theorem keeps_pure (a : α) : Keeps part (pure a : Gen σ ε υ α) := fun _ => rfl

theorem keeps_emit (y : υ) : Keeps part (emit y : Gen σ ε υ Unit) := fun _ => rfl

theorem keeps_raise (e : ε) : Keeps part (raise e : Gen σ ε υ α) := fun _ => rfl

theorem keeps_modify {f : σ → σ} (h : ∀ s, part (f s) = part s) :
    Keeps part (modify f : Gen σ ε υ Unit) := h

theorem Keeps.bind {g : Gen σ ε υ α} {f : α → Gen σ ε υ β} (hg : Keeps part g)
    (hf : ∀ a, Keeps part (f a)) : Keeps part (g >>= f) := by
  intro s
  cases hr : (g s).result with
  | ok a => rw [bind_of_ok hr, hf a, hg s]
  | error e => rw [bind_of_error hr, hg s]

/-! ## Runs on a part of the state -/

/-- `g'` runs as `g` does on the part `part` of its state. -/
def Over {σ' : Type} (part : σ' → σ) (g' : Gen σ' ε υ α) (g : Gen σ ε υ α) : Prop :=
  ∀ s, (g' s).emitted = (g (part s)).emitted ∧ (g' s).result = (g (part s)).result ∧
    part (g' s).state = (g (part s)).state

section Over

variable {σ' : Type} {part : σ' → σ}

theorem over_pure (a : α) : Over part (pure a : Gen σ' ε υ α) (pure a) :=
  fun _ => ⟨rfl, rfl, rfl⟩

theorem over_emit (y : υ) : Over part (emit y : Gen σ' ε υ Unit) (emit y) :=
  fun _ => ⟨rfl, rfl, rfl⟩

theorem over_raise (e : ε) : Over part (raise e : Gen σ' ε υ α) (raise e) :=
  fun _ => ⟨rfl, rfl, rfl⟩

theorem over_ofExcept (r : Except ε α) : Over part (ofExcept r : Gen σ' ε υ α) (ofExcept r) :=
  fun _ => ⟨rfl, rfl, rfl⟩

theorem over_modify {f' : σ' → σ'} {f : σ → σ} (h : ∀ s, part (f' s) = f (part s)) :
    Over part (modify f' : Gen σ' ε υ Unit) (modify f) :=
  fun s => ⟨rfl, rfl, h s⟩

theorem Over.bind {g' : Gen σ' ε υ α} {g : Gen σ ε υ α} {f' : α → Gen σ' ε υ β}
    {f : α → Gen σ ε υ β} (hg : Over part g' g) (hf : ∀ a, Over part (f' a) (f a)) :
    Over part (g' >>= f') (g >>= f) := by
  intro s
  obtain ⟨hemitted, hresult, hstate⟩ := hg s
  cases hr : (g' s).result with
  | ok a =>
    obtain ⟨hemitted', hresult', hstate'⟩ := hf a (g' s).state
    rw [bind_of_ok hr, bind_of_ok (hresult ▸ hr), hemitted, hemitted', hresult', hstate', hstate]
    exact ⟨rfl, rfl, rfl⟩
  | error e =>
    rw [bind_of_error hr, bind_of_error (hresult ▸ hr)]
    exact ⟨hemitted, rfl, hstate⟩

theorem Over.handle {g' : Gen σ' ε υ α} {g : Gen σ ε υ α} {k' : ε → Gen σ' ε υ α}
    {k : ε → Gen σ ε υ α} (hg : Over part g' g) (hk : ∀ e, Over part (k' e) (k e)) :
    Over part (g'.handle k') (g.handle k) := by
  intro s
  obtain ⟨hemitted, hresult, hstate⟩ := hg s
  cases hr : (g' s).result with
  | ok a =>
    rw [handle_of_ok hr, handle_of_ok (hresult ▸ hr)]
    exact hg s
  | error e =>
    obtain ⟨hemitted', hresult', hstate'⟩ := hk e (g' s).state
    rw [handle_of_error hr, handle_of_error (hresult ▸ hr), hemitted, hemitted', hresult', hstate',
      hstate]
    exact ⟨rfl, rfl, rfl⟩

end Over

/-! ## What is yielded and raised -/

/-- From any state, every value that `g` yields satisfies `P` and an exception satisfies `Q`. -/
def Within (P : υ → Prop) (Q : ε → Prop) (g : Gen σ ε υ α) : Prop :=
  ∀ s, (∀ y ∈ (g s).emitted, P y) ∧ ∀ e, (g s).result = .error e → Q e

variable {P : υ → Prop} {Q : ε → Prop}

theorem within_pure (a : α) : Within P Q (pure a : Gen σ ε υ α) := fun _ => ⟨nofun, nofun⟩

theorem within_modify (f : σ → σ) : Within P Q (modify f : Gen σ ε υ Unit) :=
  fun _ => ⟨nofun, nofun⟩

theorem within_emit {y : υ} (h : P y) : Within P Q (emit y : Gen σ ε υ Unit) :=
  fun _ => ⟨fun _ hz => List.mem_singleton.1 hz ▸ h, nofun⟩

theorem within_raise {e : ε} (h : Q e) : Within P Q (raise e : Gen σ ε υ α) :=
  fun _ => ⟨nofun, fun _ he => Except.error.inj he ▸ h⟩

theorem within_ofExcept {r : Except ε α} (h : ∀ e, r = .error e → Q e) :
    Within P Q (ofExcept r : Gen σ ε υ α) :=
  fun _ => ⟨nofun, h⟩

theorem Within.bind {g : Gen σ ε υ α} {f : α → Gen σ ε υ β} (hg : Within P Q g)
    (hf : ∀ a, Within P Q (f a)) : Within P Q (g >>= f) := by
  intro s
  obtain ⟨hyield, hraise⟩ := hg s
  cases hr : (g s).result with
  | ok a =>
    obtain ⟨hyield', hraise'⟩ := hf a (g s).state
    rw [bind_of_ok hr]
    refine ⟨fun y hy => ?_, hraise'⟩
    rcases List.mem_append.1 hy with hy | hy
    · exact hyield y hy
    · exact hyield' y hy
  | error e =>
    rw [bind_of_error hr]
    refine ⟨hyield, ?_⟩
    rintro _ ⟨⟩
    exact hraise e hr

/-! ## A last value of another kind -/

/-- From any state, `g` yields values that satisfy `P`, and may end, without an exception, with
one more that satisfies `R`; an exception satisfies `Q`. -/
def Terminal (P : υ → Prop) (Q : ε → Prop) (R : υ → Prop) (g : Gen σ ε υ Unit) : Prop :=
  ∀ s, ∃ body last, (g s).emitted = body ++ last ∧ (∀ y ∈ body, P y) ∧
    (last = [] ∨ ∃ y, last = [y] ∧ R y ∧ (g s).result = .ok ()) ∧
    ∀ e, (g s).result = .error e → Q e

variable {R : υ → Prop}

theorem Within.terminal {g : Gen σ ε υ Unit} (h : Within P Q g) : Terminal P Q R g :=
  fun s => ⟨(g s).emitted, [], (List.append_nil _).symm, (h s).1, Or.inl rfl, (h s).2⟩

theorem terminal_emit {y : υ} (h : R y) : Terminal P Q R (emit y : Gen σ ε υ Unit) :=
  fun _ => ⟨[], [y], rfl, nofun, Or.inr ⟨y, rfl, h, rfl⟩, nofun⟩

theorem Within.bind_terminal {g : Gen σ ε υ α} {f : α → Gen σ ε υ Unit} (hg : Within P Q g)
    (hf : ∀ a, Terminal P Q R (f a)) : Terminal P Q R (g >>= f) := by
  intro s
  obtain ⟨hyield, hraise⟩ := hg s
  cases hr : (g s).result with
  | ok a =>
    obtain ⟨body, last, hemitted, hbody, hlast, hraise'⟩ := hf a (g s).state
    rw [bind_of_ok hr]
    refine ⟨(g s).emitted ++ body, last, by rw [hemitted, List.append_assoc], ?_, hlast, hraise'⟩
    exact fun y hy => (List.mem_append.1 hy).elim (hyield y) (hbody y)
  | error e =>
    rw [bind_of_error hr]
    refine ⟨(g s).emitted, [], (List.append_nil _).symm, hyield, Or.inl rfl, ?_⟩
    rintro _ ⟨⟩
    exact hraise e hr

/-- **A handler that yields one last value** for every exception leaves none. -/
theorem Terminal.handle {g : Gen σ ε υ Unit} (h : Terminal P Q R g) {handler : ε → Gen σ ε υ Unit}
    (hhandler : ∀ e, Q e → ∃ y, R y ∧ handler e = emit y) :
    Terminal P (fun _ => False) R (g.handle handler) := by
  intro s
  obtain ⟨body, last, hemitted, hbody, hlast, hraise⟩ := h s
  cases hr : (g s).result with
  | ok a =>
    rw [handle_of_ok hr]
    exact ⟨body, last, hemitted, hbody, hlast, fun e he => by rw [hr] at he; cases he⟩
  | error e =>
    obtain ⟨y, hy, hemit⟩ := hhandler e (hraise e hr)
    rw [handle_of_error hr, hemit]
    refine ⟨body, [y], ?_, hbody, Or.inr ⟨y, rfl, hy, rfl⟩, nofun⟩
    rcases hlast with rfl | ⟨_, _, _, hok⟩
    · simpa using hemitted
    · rw [hr] at hok
      cases hok

end Gen
