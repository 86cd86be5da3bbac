import MeJournal.Lib.Runs

/-!
# The session of the mobile client

`mobile/lib/auth/auth-store.tsx` over `mobile/lib/api/client.ts` and
`mobile/lib/auth/session-storage.ts`.  An `await` is a point at which anything else may happen:
requests wait for their answers, and `login`, `logout` and the startup effect wait for the secure
storage.  The storage serves its calls in the order they were made, so a call takes effect where it
is made and only its promise resolves later.

* `keeps_iff_timely` — which steps take a login's session away wrongly.
* `logins_kept_iff` — in a run none does exactly when every step is timely.
* `session_stays` — then a session stays signed in until a login, a logout or a 401 of its own.
* `logins_kept_late` — a 401 of the session before, a startup load after the login, and a 401 to a
  request sent before the startup load.
-/

namespace MeJournal

/-- `StoredSession`. -/
structure StoredSession where
  token : String
  expiresAt : String
  deriving DecidableEq

inductive AuthStatus where
  | loading
  | authenticated
  | unauthenticated
  deriving DecidableEq

/-- A request in flight, with the token of its `authorization` header. -/
structure ApiRequest where
  token : Option String
  /-- `POST /auth/login`. -/
  isLogin : Bool
  deriving DecidableEq

/-- Where the startup effect waits. -/
inductive Startup where
  /-- For `loadSession`, which has read this; what does not parse is no session. -/
  | loading (stored : Option StoredSession)
  /-- For `clearStored` of an expired session. -/
  | clearing
  | done
  deriving DecidableEq

/-- A call of `login` that waits for `saveSession`, with the number of sessions that logins had
saved when it was answered. -/
structure SavingLogin where
  next : StoredSession
  before : Nat
  deriving DecidableEq

/-- `AuthProvider`.  State is what was set last; `tokenRef` follows it at the next render. -/
structure AuthStore where
  status : AuthStatus
  session : Option StoredSession
  tokenRef : Option String
  verifiedRef : Bool
  /-- The secure storage. -/
  stored : Option StoredSession
  requests : List ApiRequest
  startup : Startup
  saving : List SavingLogin
  /-- The calls of `logout` that wait for `clearStored`, each with the number of sessions that
  logins had put into the state when it was called. -/
  leaving : List Nat
  /-- The sessions that logins have saved. -/
  saved : List StoredSession
  /-- The sessions that logins have put into the state. -/
  signedIn : List StoredSession
  /-- The sessions of earlier logins that the startup effect has put there. -/
  restored : List StoredSession

inductive AuthEvent where
  /-- Any request but a login. -/
  | send
  | login
  /-- A request is answered, by a 401 or not; a login not by a session. -/
  | answer (i : Nat) (unauthorized : Bool)
  /-- A login is answered by a session. -/
  | grant (i : Nat) (next : StoredSession)
  /-- `saveSession` resolves. -/
  | resumeLogin (i : Nat)
  | logout
  /-- `clearStored` resolves. -/
  | resumeLogout (i : Nat)
  /-- What the startup effect waits for resolves. -/
  | resumeStartup (now : Int)
  /-- React renders and runs the effects. -/
  | flush
  deriving DecidableEq

/-- `isExpired`, with `Date.parse` as a parameter. -/
def isExpired (parse : String → Option Int) (expiresAt : String) (now : Int) : Bool :=
  match parse expiresAt with
  | none => true
  | some ts => ts ≤ now

namespace AuthStore

/-- The first render, with what the storage holds. -/
def start (stored : Option StoredSession) : AuthStore where
  status := .loading
  session := none
  tokenRef := none
  verifiedRef := false
  stored := stored
  requests := []
  startup := .loading stored
  saving := []
  leaving := []
  saved := []
  signedIn := []
  restored := []

/-- `request`, up to its `fetch`; an empty token gives no header. -/
def request (s : AuthStore) (isLogin : Bool) : AuthStore :=
  { s with requests := s.requests ++ [⟨s.tokenRef.filter fun token => token ≠ "", isLogin⟩] }

/-- `setSession(null)` and `setStatus("unauthenticated")`. -/
def signOut (s : AuthStore) : AuthStore :=
  { s with session := none, status := .unauthenticated }

/-- `handleUnauthorized`. -/
def handleUnauthorized (s : AuthStore) : AuthStore :=
  if s.tokenRef = none then s
  else { s with tokenRef := none, verifiedRef := false, stored := none }.signOut

def answer (s : AuthStore) (i : Nat) (unauthorized : Bool) : AuthStore :=
  match s.requests[i]? with
  | none => s
  | some _ =>
    let s := { s with requests := s.requests.eraseIdx i }
    if unauthorized then s.handleUnauthorized else s

/-- `login`, from the answer to `saveSession`. -/
def grant (s : AuthStore) (i : Nat) (next : StoredSession) : AuthStore :=
  match s.requests[i]? with
  | none => s
  | some r =>
    if r.isLogin then
      { s with
        requests := s.requests.eraseIdx i
        stored := some next
        saving := s.saving ++ [⟨next, s.saved.length⟩]
        saved := s.saved ++ [next] }
    else s

/-- `login`, after `saveSession`. -/
def resumeLogin (s : AuthStore) (i : Nat) : AuthStore :=
  match s.saving[i]? with
  | none => s
  | some call =>
    { s with
      saving := s.saving.eraseIdx i
      tokenRef := some call.next.token
      verifiedRef := true
      session := some call.next
      status := .authenticated
      signedIn := s.signedIn ++ [call.next] }

/-- `logout`, up to `clearStored`. -/
def logout (s : AuthStore) : AuthStore :=
  { s with
    tokenRef := none
    verifiedRef := false
    stored := none
    leaving := s.leaving ++ [s.signedIn.length] }

/-- `logout`, after `clearStored`. -/
def resumeLogout (s : AuthStore) (i : Nat) : AuthStore :=
  match s.leaving[i]? with
  | none => s
  | some _ => { s with leaving := s.leaving.eraseIdx i }.signOut

/-- The startup effect, up to where it waits next. -/
def resumeStartup (parse : String → Option Int) (s : AuthStore) (now : Int) : AuthStore :=
  match s.startup with
  | .loading none => { s with startup := .done }.signOut
  | .loading (some stored) =>
    if isExpired parse stored.expiresAt now then { s with stored := none, startup := .clearing }
    else { s with
      session := some stored, status := .authenticated, startup := .done,
      restored := s.restored ++ [stored] }
  | .clearing => { s with startup := .done }.signOut
  | .done => s

/-- A render, and the effect that verifies a loaded session by `api.auth.me()`. -/
def flush (s : AuthStore) : AuthStore :=
  let s := { s with tokenRef := s.session.map StoredSession.token }
  if s.status ≠ .authenticated || s.session.isNone || s.verifiedRef then s
  else { s with verifiedRef := true }.request false

def step (parse : String → Option Int) (s : AuthStore) : AuthEvent → AuthStore
  | .send => s.request false
  | .login => s.request true
  | .answer i unauthorized => s.answer i unauthorized
  | .grant i next => s.grant i next
  | .resumeLogin i => s.resumeLogin i
  | .logout => s.logout
  | .resumeLogout i => s.resumeLogout i
  | .resumeStartup now => s.resumeStartup parse now
  | .flush => s.flush

/-! ## What is to hold -/

/-- The sessions of logins that have been in the state. -/
def stateLogins (s : AuthStore) : List StoredSession := s.signedIn ++ s.restored

/-- The sessions of logins that are known to have been in the storage. -/
def storedLogins (s : AuthStore) : List StoredSession := s.saved ++ s.restored

/-- The events that may take the session `x` of a login away: a login answered later, which puts its
own session there, a logout called since, or a 401 to a request sent with the token of `x`. -/
def MayRemove (s : AuthStore) (x : StoredSession) : AuthEvent → Prop
  -- what is in the storage was saved by a login answered before
  | .grant .. => True
  | .resumeLogin i => ∃ call, s.saving[i]? = some call ∧ x ∉ s.saved.drop call.before
  | .logout => True
  | .resumeLogout i => ∃ since, s.leaving[i]? = some since ∧ x ∉ s.signedIn.drop since
  | .answer i true => ∃ r, s.requests[i]? = some r ∧ r.token = some x.token
  | _ => False

/-- A login's session is gone from a place only if it may be. -/
def Kept (logins : List StoredSession) (place place' : Option StoredSession)
    (may : StoredSession → Prop) : Prop :=
  ∀ x ∈ logins, place = some x → place' ≠ some x → may x

/-- A step takes the session of a login away, from the state or from the storage, only if it may. -/
def Keeps (parse : String → Option Int) (s : AuthStore) (e : AuthEvent) : Prop :=
  Kept s.stateLogins s.session (s.step parse e).session (fun x => s.MayRemove x e) ∧
    Kept s.storedLogins s.stored (s.step parse e).stored fun x => s.MayRemove x e

/-! ## The condition -/

/-- There is no session of a login in the state. -/
def noLogin (s : AuthStore) : Bool := s.session.all fun x => !s.stateLogins.contains x

/-- A 401 that finds `tokenRef` set answers a request sent with the token of every login's session,
in the state and in the storage; `login` goes on only while the state has no session of a login
answered after it, and `logout` only while it has none that a login put there since its call; the
startup effect goes on only while there is no login's session that it would replace or clear. -/
def timely (parse : String → Option Int) (s : AuthStore) : AuthEvent → Bool
  | .answer i true =>
    match s.requests[i]? with
    | none => true
    | some r =>
      s.tokenRef.isNone ||
        ((s.session.all fun x => !s.stateLogins.contains x || r.token = some x.token) &&
          s.stored.all fun x => !s.storedLogins.contains x || r.token = some x.token)
  | .resumeLogin i =>
    match s.saving[i]? with
    | none => true
    | some call => s.session.all fun x =>
      !s.stateLogins.contains x || x = call.next || !(s.saved.drop call.before).contains x
  | .resumeLogout i =>
    match s.leaving[i]? with
    | none => true
    | some since => s.session.all fun x => !(s.signedIn.drop since).contains x
  | .resumeStartup now =>
    match s.startup with
    | .loading none => s.noLogin
    | .loading (some stored) =>
      if isExpired parse stored.expiresAt now then s.stored.all fun x => !s.storedLogins.contains x
      else s.session.all fun x => !s.stateLogins.contains x || x = stored
    | .clearing => s.noLogin
    | .done => true
  | _ => true

/-! ## Places -/

section Places

variable {logins : List StoredSession} {place place' : Option StoredSession}
  {may : StoredSession → Prop}

theorem kept_of_same (h : place' = place) : Kept logins place place' may :=
  fun _ _ hx hgone => absurd (h.trans hx) hgone

theorem kept_of_may (h : ∀ x ∈ logins, place = some x → may x) : Kept logins place place' may :=
  fun x hx hplace _ => h x hx hplace

theorem kept_iff : Kept logins place place' may ↔
    ∀ x ∈ place, x ∈ logins → place' ≠ some x → may x :=
  ⟨fun h x hx hlogin => h x hlogin hx, fun h x hlogin hx => h x hx hlogin⟩

/-- A place that is emptied. -/
theorem kept_of_none [DecidablePred may] (h : place' = none) :
    Kept logins place place' may ↔ place.all (fun x => !logins.contains x || may x) = true := by
  rw [kept_iff, h]
  cases place <;> simp [or_iff_not_imp_left]

/-- A place that is taken by `y`. -/
theorem kept_of_some [DecidablePred may] {y : StoredSession} (h : place' = some y) :
    Kept logins place place' may ↔
      place.all (fun x => !logins.contains x || x = y || may x) = true := by
  rw [kept_iff, h]
  cases place with
  | none => simp
  | some x => simp [or_iff_not_imp_left, eq_comm (a := y)]

end Places

/-! ## One step -/

section Step

variable {parse : String → Option Int} {s : AuthStore} {e : AuthEvent}

/-- A step that leaves both places as they are. -/
theorem keeps_of_same (hsession : (s.step parse e).session = s.session)
    (hstored : (s.step parse e).stored = s.stored) : s.Keeps parse e :=
  ⟨kept_of_same hsession, kept_of_same hstored⟩

theorem keeps_of_mayRemove (h : ∀ x, s.MayRemove x e) : s.Keeps parse e :=
  ⟨kept_of_may fun x _ _ => h x, kept_of_may fun x _ _ => h x⟩

theorem flush_places (s : AuthStore) : s.flush.session = s.session ∧ s.flush.stored = s.stored := by
  unfold flush
  simp only
  split <;> exact ⟨rfl, rfl⟩

/-- A 401 does nothing while `tokenRef` is null, and else empties both places. -/
theorem keeps_answer (parse : String → Option Int) (s : AuthStore) (i : Nat) :
    s.Keeps parse (.answer i true) ↔ s.timely parse (.answer i true) = true := by
  cases hr : s.requests[i]? with
  | none =>
    have hsame : s.step parse (.answer i true) = s := by simp [step, answer, hr]
    simp only [timely, hr, iff_true]
    exact keeps_of_same (by rw [hsame]) (by rw [hsame])
  | some r =>
    by_cases hnull : s.tokenRef = none
    · have hsame : s.step parse (.answer i true) =
          { s with requests := s.requests.eraseIdx i } := by
        simp [step, answer, hr, handleUnauthorized, hnull]
      simp only [timely, hr, hnull, Option.isNone_none, Bool.true_or, iff_true]
      exact keeps_of_same (by rw [hsame]) (by rw [hsame])
    · have hempty : (s.step parse (.answer i true)).session = none ∧
          (s.step parse (.answer i true)).stored = none := by
        simp [step, answer, hr, handleUnauthorized, hnull, signOut]
      have hmay : ∀ x, s.MayRemove x (.answer i true) ↔ r.token = some x.token := by
        simp [MayRemove, hr]
      simp only [Keeps, hmay, kept_of_none hempty.1, kept_of_none hempty.2, timely, hr,
        Option.isNone_eq_false_iff.2 (Option.isSome_iff_ne_none.2 hnull), Bool.false_or,
        Bool.and_eq_true]

theorem keeps_resumeLogout (parse : String → Option Int) (s : AuthStore) (i : Nat) :
    s.Keeps parse (.resumeLogout i) ↔ s.timely parse (.resumeLogout i) = true := by
  cases hsince : s.leaving[i]? with
  | none =>
    have hsame : s.step parse (.resumeLogout i) = s := by simp [step, resumeLogout, hsince]
    simp only [timely, hsince, iff_true]
    exact keeps_of_same (by rw [hsame]) (by rw [hsame])
  | some since =>
    have hempty : (s.step parse (.resumeLogout i)).session = none ∧
        (s.step parse (.resumeLogout i)).stored = s.stored := by
      simp [step, resumeLogout, hsince, signOut]
    have hmay : ∀ x, s.MayRemove x (.resumeLogout i) ↔ x ∉ s.signedIn.drop since := by
      simp [MayRemove, hsince]
    rw [Keeps, and_iff_left (kept_of_same hempty.2)]
    simp only [hmay, kept_of_none hempty.1, timely, hsince]
    cases s.session with
    | none => rfl
    | some y =>
      have hdrop : y ∈ s.signedIn.drop since → y ∈ s.stateLogins :=
        fun h => List.mem_append_left _ (List.mem_of_mem_drop h)
      simp only [Option.all_some, List.contains_eq_mem, Bool.or_eq_true, Bool.not_eq_true',
        decide_eq_false_iff_not, decide_eq_true_eq]
      exact or_iff_right_of_imp fun hnot h => hnot (hdrop h)

theorem keeps_resumeLogin (parse : String → Option Int) (s : AuthStore) (i : Nat) :
    s.Keeps parse (.resumeLogin i) ↔ s.timely parse (.resumeLogin i) = true := by
  cases hcall : s.saving[i]? with
  | none =>
    have hsame : s.step parse (.resumeLogin i) = s := by simp [step, resumeLogin, hcall]
    simp only [timely, hcall, iff_true]
    exact keeps_of_same (by rw [hsame]) (by rw [hsame])
  | some call =>
    have hplaces : (s.step parse (.resumeLogin i)).session = some call.next ∧
        (s.step parse (.resumeLogin i)).stored = s.stored := by
      simp [step, resumeLogin, hcall]
    have hmay : ∀ x, s.MayRemove x (.resumeLogin i) ↔ x ∉ s.saved.drop call.before := by
      simp [MayRemove, hcall]
    rw [Keeps, and_iff_left (kept_of_same hplaces.2)]
    simp only [hmay, kept_of_some hplaces.1, timely, hcall, List.contains_eq_mem, decide_not]

/-- The startup effect may take nothing away. -/
theorem keeps_resumeStartup (parse : String → Option Int) (s : AuthStore) (now : Int) :
    s.Keeps parse (.resumeStartup now) ↔ s.timely parse (.resumeStartup now) = true := by
  have hmay : ∀ x, s.MayRemove x (.resumeStartup now) ↔ False := fun _ => Iff.rfl
  have hnone : ∀ {logins : List StoredSession} {place place' : Option StoredSession},
      place' = none → (Kept logins place place' (fun _ => False) ↔
        place.all (fun x => !logins.contains x) = true) := by
    intro logins place place' h
    simp only [kept_of_none h, decide_false, Bool.or_false]
  cases hstartup : s.startup with
  | loading read =>
    cases read with
    | none =>
      have hplaces : (s.step parse (.resumeStartup now)).session = none ∧
          (s.step parse (.resumeStartup now)).stored = s.stored := by
        simp [step, resumeStartup, hstartup, signOut]
      rw [Keeps, and_iff_left (kept_of_same hplaces.2)]
      simp only [hmay, hnone hplaces.1, timely, hstartup, noLogin]
    | some stored =>
      by_cases hexpired : isExpired parse stored.expiresAt now = true
      · have hplaces : (s.step parse (.resumeStartup now)).session = s.session ∧
            (s.step parse (.resumeStartup now)).stored = none := by
          simp [step, resumeStartup, hstartup, hexpired]
        rw [Keeps, and_iff_right (kept_of_same hplaces.1)]
        simp only [hmay, hnone hplaces.2, timely, hstartup, hexpired, if_true]
      · have hplaces : (s.step parse (.resumeStartup now)).session = some stored ∧
            (s.step parse (.resumeStartup now)).stored = s.stored := by
          simp [step, resumeStartup, hstartup, hexpired]
        rw [Keeps, and_iff_left (kept_of_same hplaces.2)]
        simp only [hmay, kept_of_some hplaces.1, timely, hstartup, hexpired, decide_false,
          Bool.or_false, Bool.false_eq_true, if_false]
  | clearing =>
    have hplaces : (s.step parse (.resumeStartup now)).session = none ∧
        (s.step parse (.resumeStartup now)).stored = s.stored := by
      simp [step, resumeStartup, hstartup, signOut]
    rw [Keeps, and_iff_left (kept_of_same hplaces.2)]
    simp only [hmay, hnone hplaces.1, timely, hstartup, noLogin]
  | done =>
    have hsame : s.step parse (.resumeStartup now) = s := by simp [step, resumeStartup, hstartup]
    simp only [timely, hstartup, iff_true]
    exact keeps_of_same (by rw [hsame]) (by rw [hsame])

/-- **One step takes a login's session away wrongly exactly when it is not timely.** -/
theorem keeps_iff_timely (parse : String → Option Int) (s : AuthStore) (e : AuthEvent) :
    s.Keeps parse e ↔ s.timely parse e = true := by
  cases e with
  | send => exact iff_of_true (keeps_of_same rfl rfl) rfl
  | login => exact iff_of_true (keeps_of_same rfl rfl) rfl
  | answer i unauthorized =>
    cases unauthorized with
    | true => exact keeps_answer parse s i
    | false =>
      refine iff_of_true (keeps_of_same ?_ ?_) rfl
      · simp only [step, answer]
        split <;> rfl
      · simp only [step, answer]
        split <;> rfl
  | grant i next => exact iff_of_true (keeps_of_mayRemove fun _ => trivial) rfl
  | resumeLogin i => exact keeps_resumeLogin parse s i
  | logout => exact iff_of_true (keeps_of_mayRemove fun _ => trivial) rfl
  | resumeLogout i => exact keeps_resumeLogout parse s i
  | resumeStartup now => exact keeps_resumeStartup parse s now
  | flush => exact iff_of_true (keeps_of_same (flush_places s).1 (flush_places s).2) rfl

end Step

/-! ## Runs -/

/-- The three lists only grow. -/
theorem logins_grow (parse : String → Option Int) (s : AuthStore) (e : AuthEvent) :
    s.signedIn <+: (s.step parse e).signedIn ∧ s.saved <+: (s.step parse e).saved ∧
      s.restored <+: (s.step parse e).restored := by
  have hsame : s.signedIn <+: s.signedIn ∧ s.saved <+: s.saved ∧ s.restored <+: s.restored :=
    ⟨List.prefix_rfl, List.prefix_rfl, List.prefix_rfl⟩
  cases e with
  | answer i unauthorized =>
    simp only [step, answer, handleUnauthorized, signOut]
    split
    · exact hsame
    · split
      · split <;> exact hsame
      · exact hsame
  | grant i next =>
    simp only [step, grant]
    split
    · exact hsame
    · split
      · exact ⟨List.prefix_rfl, List.prefix_append _ _, List.prefix_rfl⟩
      · exact hsame
  | resumeLogin i =>
    simp only [step, resumeLogin]
    split
    · exact hsame
    · exact ⟨List.prefix_append _ _, List.prefix_rfl, List.prefix_rfl⟩
  | resumeLogout i =>
    simp only [step, resumeLogout, signOut]
    split <;> exact hsame
  | resumeStartup now =>
    simp only [step, resumeStartup, signOut]
    split
    · exact hsame
    · split
      · exact hsame
      · exact ⟨List.prefix_rfl, List.prefix_rfl, List.prefix_append _ _⟩
    · exact hsame
    · exact hsame
  | flush =>
    simp only [step, flush]
    split <;> exact hsame
  | _ => exact hsame

/-- The session of a login stays one. -/
theorem stateLogins_grow (parse : String → Option Int) (s : AuthStore) (e : AuthEvent) :
    s.stateLogins ⊆ (s.step parse e).stateLogins := by
  obtain ⟨hsignedIn, -, hrestored⟩ := logins_grow parse s e
  exact List.append_subset.2 ⟨fun x hx => List.mem_append_left _ (hsignedIn.subset hx),
    fun x hx => List.mem_append_right _ (hrestored.subset hx)⟩

theorem storedLogins_grow (parse : String → Option Int) (s : AuthStore) (e : AuthEvent) :
    s.storedLogins ⊆ (s.step parse e).storedLogins := by
  obtain ⟨-, hsaved, hrestored⟩ := logins_grow parse s e
  exact List.append_subset.2 ⟨fun x hx => List.mem_append_left _ (hsaved.subset hx),
    fun x hx => List.mem_append_right _ (hrestored.subset hx)⟩

/-- **The session of a login stays** in the state and in the storage, in a run of timely steps of
which none may remove it. -/
theorem session_stays (parse : String → Option Int) {s : AuthStore} {x : StoredSession}
    {es : List AuthEvent}
    (htimely : ∀ p ∈ Runs.steps (step parse) s es, p.1.timely parse p.2 = true)
    (hmay : ∀ p ∈ Runs.steps (step parse) s es, ¬ p.1.MayRemove x p.2) :
    (s.session = some x → x ∈ s.stateLogins → (Runs.run (step parse) s es).session = some x) ∧
      (s.stored = some x → x ∈ s.storedLogins → (Runs.run (step parse) s es).stored = some x) := by
  have hsteps : ∀ p ∈ Runs.steps (step parse) s es, p.1.Keeps parse p.2 ∧ ¬ p.1.MayRemove x p.2 :=
    fun p hp => ⟨(keeps_iff_timely parse p.1 p.2).2 (htimely p hp), hmay p hp⟩
  have hlast := Runs.run_mem_states (step parse) s es
  constructor
  · intro hx hlogin
    have hstep : ∀ (t : AuthStore) e, t.session = some x ∧ x ∈ t.stateLogins →
        t.Keeps parse e ∧ ¬ t.MayRemove x e →
          (t.step parse e).session = some x ∧ x ∈ (t.step parse e).stateLogins := by
      rintro t e ⟨ht, hmem⟩ ⟨hkeeps, hnot⟩
      exact ⟨Classical.byContradiction fun hgone => hnot (hkeeps.1 x hmem ht hgone),
        stateLogins_grow parse t e hmem⟩
    exact (Runs.inv_states_of_steps hstep ⟨hx, hlogin⟩ hsteps _ hlast).1
  · intro hx hlogin
    have hstep : ∀ (t : AuthStore) e, t.stored = some x ∧ x ∈ t.storedLogins →
        t.Keeps parse e ∧ ¬ t.MayRemove x e →
          (t.step parse e).stored = some x ∧ x ∈ (t.step parse e).storedLogins := by
      rintro t e ⟨ht, hmem⟩ ⟨hkeeps, hnot⟩
      exact ⟨Classical.byContradiction fun hgone => hnot (hkeeps.2 x hmem ht hgone),
        storedLogins_grow parse t e hmem⟩
    exact (Runs.inv_states_of_steps hstep ⟨hx, hlogin⟩ hsteps _ hlast).1

/-- **When logins keep their sessions.** In a run from the first render, no step takes the session
of a login, of this run or restored, away from the state or the storage, other than a later login or
logout or a 401 to its own token, exactly when every step is timely. -/
theorem logins_kept_iff (parse : String → Option Int) (stored : Option StoredSession)
    (es : List AuthEvent) :
    (∀ p ∈ Runs.steps (step parse) (start stored) es, p.1.Keeps parse p.2) ↔
      ∀ p ∈ Runs.steps (step parse) (start stored) es, p.1.timely parse p.2 = true :=
  forall₂_congr fun p _ => keeps_iff_timely parse p.1 p.2

/-- A request of the session before is answered by a 401 after the next login. -/
def lateUnauthorized : List AuthEvent :=
  [.resumeStartup 0, .flush, .logout, .resumeLogout 0, .login, .grant 1 ⟨"new", "later"⟩,
    .resumeLogin 0, .answer 0 true]

/-- The startup load resolves after a login. -/
def lateStartup : List AuthEvent :=
  [.login, .grant 0 ⟨"new", "later"⟩, .resumeLogin 0, .resumeStartup 0]

/-- A request without a token is answered by a 401 after the session was restored. -/
def earlyRequest : List AuthEvent := [.send, .resumeStartup 0, .flush, .answer 0 true]

/-- The first two sign the new session out, the third one the restored one. -/
theorem logins_kept_late :
    ¬ (∀ p ∈ Runs.steps (step fun _ => some 1) (start (some ⟨"old", "later"⟩)) lateUnauthorized,
        p.1.Keeps (fun _ => some 1) p.2) ∧
      ¬ (∀ p ∈ Runs.steps (step fun _ => some 1) (start none) lateStartup,
        p.1.Keeps (fun _ => some 1) p.2) ∧
      ¬ (∀ p ∈ Runs.steps (step fun _ => some 1) (start (some ⟨"old", "later"⟩)) earlyRequest,
        p.1.Keeps (fun _ => some 1) p.2) := by
  simp only [keeps_iff_timely]
  decide

end AuthStore

end MeJournal
