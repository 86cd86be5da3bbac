import MeJournal.Auth.Tokens
import MeJournal.Mobile.AuthStore

/-!
# The phone and the server that signs it in

`AuthProvider` of the phone with the server behind it.  A request waits on the phone, the server
reads it at a time of its own, and the answer gets back later, or is lost.  The phone may be started
anew at any time with what its storage holds, and other clients log in meanwhile.

The phone's requests are `POST /auth/login` and those behind `current_user`; the two endpoints that
ask for a passphrase again have no screen.

* `inv_step` — what the phone holds, and what it is answered, comes from the server.
* `tokens_granted` — every token of the phone was handed out by a login, and a 401 is to a wrong
  passphrase or to a token whose time is over.
-/

namespace MeJournal

namespace SignIn

/-! ## The two ends -/

/-- The server, with what it has stored of failures at the start, and the two texts of a time. -/
structure Site (Hash : Type) where
  server : Tokens.AuthServer Hash
  throttles : ThrottleTable
  /-- `expires_at` in the JSON of a `LoginResponse`. -/
  dateText : Time → String
  /-- `Date.parse`. -/
  dateParse : String → Option Int

inductive Answer where
  | granted (next : StoredSession)
  | unauthorized
  /-- Any other. -/
  | other
  deriving DecidableEq

/-- A request of the phone. -/
structure Call where
  /-- Of a login. -/
  passphrase : Option Text
  /-- When the server read it, and its answer. -/
  served : Option (Time × Answer)
  deriving DecidableEq

structure World where
  phone : AuthStore
  /-- One for each of the phone's requests. -/
  calls : List Call
  /-- The logins that the server has read. -/
  handled : List Tokens.AuthRequest

inductive Event where
  /-- Any request but a login. -/
  | send
  | login (passphrase : Text)
  /-- The server reads a request; the other time is for the token, if there is to be one. -/
  | serve (i : Nat) (now mintedAt : Time)
  /-- An answer gets to the phone. -/
  | deliver (i : Nat)
  /-- A request or its answer is lost. -/
  | fail (i : Nat)
  /-- A passphrase of another client. -/
  | elsewhere (r : Tokens.AuthRequest)
  | resumeLogin (i : Nat)
  | logout
  | resumeLogout (i : Nat)
  | resumeStartup (now : Int)
  | flush
  /-- The app is closed and opened.  What it had sent may still be read, as that of another
  client. -/
  | restart

def World.start : World := ⟨.start none, [], []⟩

/-- What the phone makes of an answer. -/
def Answer.event (i : Nat) : Answer → AuthEvent
  | .granted next => .grant i next
  | .unauthorized => .answer i true
  | .other => .answer i false

namespace Site

variable {Hash : Type} (site : Site Hash)

/-- `StoredSession` of a `LoginResponse`. -/
def session (g : Tokens.Grant) : StoredSession := ⟨String.ofList g.token, site.dateText g.expiresAt⟩

/-- The answer of `login`. -/
def loginAnswer (t : ThrottleTable) (r : Tokens.AuthRequest) : Answer :=
  match site.server.granted t r with
  | some g => .granted (site.session g)
  | none =>
    match (servePassphrase site.server.throttle site.server.platform site.server.clientIp t
      r.request).1 with
    | .attempted outcome => if outcome.response = .invalidCreds then .unauthorized else .other
    | _ => .other

/-- The answer of an endpoint behind `current_user`. -/
def authedAnswer (now : Time) (r : ApiRequest) : Answer :=
  match Tokens.currentUser site.server.jwt site.server.users site.server.secret now
    (r.token.map fun token => Tokens.phoneHeader token.toList) with
  | none => .unauthorized
  | some _ => .other

def serve (w : World) (i : Nat) (now mintedAt : Time) : World :=
  match w.calls[i]?, w.phone.requests[i]? with
  | some ⟨some passphrase, none⟩, some _ =>
    let r : Tokens.AuthRequest := ⟨⟨now, .login passphrase⟩, mintedAt⟩
    let answer := site.loginAnswer (site.server.after site.throttles w.handled) r
    { w with
      calls := w.calls.set i ⟨some passphrase, some (now, answer)⟩
      handled := w.handled ++ [r] }
  | some ⟨none, none⟩, some r =>
    { w with calls := w.calls.set i ⟨none, some (now, site.authedAnswer now r)⟩ }
  | _, _ => w

def deliver (w : World) (i : Nat) : World :=
  match w.calls[i]? with
  | some ⟨_, some (_, answer)⟩ =>
    { w with
      phone := w.phone.step site.dateParse (answer.event i)
      calls := w.calls.eraseIdx i }
  | _ => w

/-- A render; its effect may send a request. -/
def flush (w : World) : World :=
  { w with
    phone := w.phone.flush
    calls := w.calls ++
      List.replicate (w.phone.flush.requests.length - w.phone.requests.length) ⟨none, none⟩ }

def step (w : World) : Event → World
  | .send => { w with phone := w.phone.request false, calls := w.calls ++ [⟨none, none⟩] }
  | .login passphrase =>
    { w with phone := w.phone.request true, calls := w.calls ++ [⟨some passphrase, none⟩] }
  | .serve i now mintedAt => site.serve w i now mintedAt
  | .deliver i => site.deliver w i
  | .fail i => { w with phone := w.phone.answer i false, calls := w.calls.eraseIdx i }
  | .elsewhere r => { w with handled := w.handled ++ [r] }
  | .resumeLogin i => { w with phone := w.phone.resumeLogin i }
  | .logout => { w with phone := w.phone.logout }
  | .resumeLogout i => { w with phone := w.phone.resumeLogout i }
  | .resumeStartup now => { w with phone := w.phone.resumeStartup site.dateParse now }
  | .flush => flush w
  | .restart => { w with phone := .start w.phone.stored, calls := [] }

end Site

/-! ## What the phone holds -/

/-- The sessions that the phone keeps. -/
def Holds (s : AuthStore) (x : StoredSession) : Prop :=
  s.session = some x ∨ s.stored = some x ∨ x ∈ s.saving.map SavingLogin.next ∨
    s.startup = .loading (some x)

/-- The phone keeps no session that it did not, and has no token but of such a session. -/
structure NothingNew (s s' : AuthStore) : Prop where
  holds : ∀ x, Holds s' x → Holds s x
  ref : ∀ token, s'.tokenRef = some token →
    s.tokenRef = some token ∨ ∃ x, Holds s x ∧ x.token = token

section Store

variable {s s' : AuthStore}

theorem NothingNew.refl (s : AuthStore) : NothingNew s s := ⟨fun _ => id, fun _ => Or.inl⟩

theorem NothingNew.trans {s'' : AuthStore} (h : NothingNew s s') (h' : NothingNew s' s'') :
    NothingNew s s'' := by
  refine ⟨fun x hx => h.holds x (h'.holds x hx), fun token ht => ?_⟩
  rcases h'.ref token ht with href | ⟨x, hx, rfl⟩
  · exact h.ref token href
  · exact Or.inr ⟨x, h.holds x hx, rfl⟩

/-- Every part is as it was, or cleared. -/
theorem nothingNew_of_cleared (hsession : s'.session = none ∨ s'.session = s.session)
    (hstored : s'.stored = none ∨ s'.stored = s.stored) (hsaving : s'.saving = s.saving)
    (hstartup : (∀ y, s'.startup ≠ .loading y) ∨ s'.startup = s.startup)
    (href : s'.tokenRef = none ∨ s'.tokenRef = s.tokenRef) : NothingNew s s' := by
  constructor
  · rintro x (hx | hx | hx | hx)
    · rcases hsession with hnone | hsame
      · cases hnone.symm.trans hx
      · exact Or.inl (hsame.symm.trans hx)
    · rcases hstored with hnone | hsame
      · cases hnone.symm.trans hx
      · exact Or.inr (Or.inl (hsame.symm.trans hx))
    · exact Or.inr (Or.inr (Or.inl (hsaving ▸ hx)))
    · rcases hstartup with hno | hsame
      · exact absurd hx (hno _)
      · exact Or.inr (Or.inr (Or.inr (hsame.symm.trans hx)))
  · intro token ht
    rcases href with hnone | hsame
    · cases hnone.symm.trans ht
    · exact Or.inl (hsame.symm.trans ht)

theorem nothingNew_answer (s : AuthStore) (i : Nat) (unauthorized : Bool) :
    NothingNew s (s.answer i unauthorized) := by
  unfold AuthStore.answer
  split
  · exact .refl s
  · have herase : NothingNew s { s with requests := s.requests.eraseIdx i } :=
      nothingNew_of_cleared (Or.inr rfl) (Or.inr rfl) rfl (Or.inr rfl) (Or.inr rfl)
    cases unauthorized with
    | false => exact herase
    | true =>
      refine herase.trans ?_
      simp only [if_true, AuthStore.handleUnauthorized]
      split
      · exact .refl _
      · exact nothingNew_of_cleared (Or.inl rfl) (Or.inl rfl) rfl (Or.inr rfl) (Or.inl rfl)

theorem nothingNew_resumeLogin (s : AuthStore) (i : Nat) : NothingNew s (s.resumeLogin i) := by
  unfold AuthStore.resumeLogin
  split
  · exact .refl s
  · rename_i call hcall
    have hheld : Holds s call.next :=
      Or.inr (Or.inr (Or.inl (List.mem_map_of_mem (List.mem_of_getElem? hcall))))
    constructor
    · rintro x (hx | hx | hx | hx)
      · cases hx
        exact hheld
      · exact Or.inr (Or.inl hx)
      · obtain ⟨call', hcall', rfl⟩ := List.mem_map.1 hx
        exact Or.inr (Or.inr (Or.inl (List.mem_map_of_mem (List.mem_of_mem_eraseIdx hcall'))))
      · exact Or.inr (Or.inr (Or.inr hx))
    · intro token ht
      exact Or.inr ⟨call.next, hheld, Option.some.inj ht⟩

theorem nothingNew_resumeLogout (s : AuthStore) (i : Nat) : NothingNew s (s.resumeLogout i) := by
  unfold AuthStore.resumeLogout
  split
  · exact .refl s
  · exact nothingNew_of_cleared (Or.inl rfl) (Or.inr rfl) rfl (Or.inr rfl) (Or.inr rfl)

theorem nothingNew_resumeStartup (parse : String → Option Int) (s : AuthStore) (now : Int) :
    NothingNew s (s.resumeStartup parse now) := by
  have hdone : ∀ y, Startup.done ≠ .loading y := fun y h => by cases h
  have hclearing : ∀ y, Startup.clearing ≠ .loading y := fun y h => by cases h
  unfold AuthStore.resumeStartup
  split
  · exact nothingNew_of_cleared (Or.inl rfl) (Or.inr rfl) rfl (Or.inl hdone) (Or.inr rfl)
  · rename_i stored hstartup
    split
    · exact nothingNew_of_cleared (Or.inr rfl) (Or.inl rfl) rfl (Or.inl hclearing) (Or.inr rfl)
    · refine ⟨?_, fun token => Or.inl⟩
      rintro x (hx | hx | hx | hx)
      · cases hx
        exact Or.inr (Or.inr (Or.inr hstartup))
      · exact Or.inr (Or.inl hx)
      · exact Or.inr (Or.inr (Or.inl hx))
      · cases hx
  · exact nothingNew_of_cleared (Or.inl rfl) (Or.inr rfl) rfl (Or.inl hdone) (Or.inr rfl)
  · exact .refl s

theorem nothingNew_flush (s : AuthStore) : NothingNew s s.flush := by
  have href : s.flush.tokenRef = s.session.map StoredSession.token := by
    unfold AuthStore.flush AuthStore.request
    dsimp only
    split <;> rfl
  constructor
  · intro x
    unfold AuthStore.flush AuthStore.request Holds
    dsimp only
    split <;> exact id
  · intro token ht
    obtain ⟨x, hx, htoken⟩ := Option.map_eq_some_iff.1 (href.symm.trans ht)
    exact Or.inr ⟨x, Or.inl hx, htoken⟩

theorem nothingNew_request (s : AuthStore) (isLogin : Bool) : NothingNew s (s.request isLogin) :=
  nothingNew_of_cleared (Or.inr rfl) (Or.inr rfl) rfl (Or.inr rfl) (Or.inr rfl)

theorem nothingNew_logout (s : AuthStore) : NothingNew s s.logout :=
  nothingNew_of_cleared (Or.inr rfl) (Or.inl rfl) rfl (Or.inr rfl) (Or.inl rfl)

/-- The answer of a login brings its session, and no token yet. -/
theorem holds_grant {i : Nat} {next x : StoredSession} (h : Holds (s.grant i next) x) :
    Holds s x ∨ x = next := by
  revert h
  simp only [AuthStore.grant, Holds]
  split
  · exact Or.inl
  · split
    · rintro (hx | hx | hx | hx)
      · exact Or.inl (Or.inl hx)
      · exact Or.inr (Option.some.inj hx).symm
      · rw [List.map_append] at hx
        rcases List.mem_append.1 hx with hx | hx
        · exact Or.inl (Or.inr (Or.inr (Or.inl hx)))
        · exact Or.inr (List.mem_singleton.1 hx)
      · exact Or.inl (Or.inr (Or.inr (Or.inr hx)))
    · exact Or.inl

theorem tokenRef_grant (s : AuthStore) (i : Nat) (next : StoredSession) :
    (s.grant i next).tokenRef = s.tokenRef := by
  unfold AuthStore.grant
  split
  · rfl
  · split <;> rfl

end Store

theorem requests_handleUnauthorized (s : AuthStore) :
    s.handleUnauthorized.requests = s.requests := by
  unfold AuthStore.handleUnauthorized AuthStore.signOut
  split <;> rfl

theorem requests_answer (s : AuthStore) (i : Nat) (unauthorized : Bool) :
    (s.answer i unauthorized).requests = s.requests.eraseIdx i := by
  unfold AuthStore.answer
  split
  · rename_i hnone
    exact (List.eraseIdx_of_length_le (List.getElem?_eq_none_iff.1 hnone)).symm
  · cases unauthorized with
    | false => rfl
    | true => exact requests_handleUnauthorized _

theorem requests_grant {s : AuthStore} {i : Nat} {r : ApiRequest} (hr : s.requests[i]? = some r)
    (hlogin : r.isLogin = true) (next : StoredSession) :
    (s.grant i next).requests = s.requests.eraseIdx i := by
  rw [AuthStore.grant, hr]
  simp only [hlogin, if_true]

theorem requests_resume (parse : String → Option Int) (s : AuthStore) (i : Nat) (now : Int) :
    (s.resumeLogin i).requests = s.requests ∧ (s.resumeLogout i).requests = s.requests ∧
      (s.resumeStartup parse now).requests = s.requests := by
  refine ⟨?_, ?_, ?_⟩
  · unfold AuthStore.resumeLogin
    split <;> rfl
  · unfold AuthStore.resumeLogout AuthStore.signOut
    split <;> rfl
  · unfold AuthStore.resumeStartup AuthStore.signOut
    split
    · rfl
    · split <;> rfl
    · rfl
    · rfl

/-- A request that the phone sends now. -/
def newRequest (tokenRef : Option String) (isLogin : Bool) : ApiRequest :=
  ⟨tokenRef.filter fun token => token ≠ "", isLogin⟩

theorem requests_flush (s : AuthStore) : s.flush.requests = s.requests ∨
    s.flush.requests = s.requests ++ [newRequest (s.session.map StoredSession.token) false] := by
  unfold AuthStore.flush AuthStore.request
  dsimp only
  split
  · exact Or.inl rfl
  · exact Or.inr rfl

/-! ## Calls beside requests -/

section Beside

variable {α β : Type} {R : α → β → Prop} {l : List α} {l' : List β}

theorem forall₂_eraseIdx (h : List.Forall₂ R l l') (i : Nat) :
    List.Forall₂ R (l.eraseIdx i) (l'.eraseIdx i) := by
  induction h generalizing i with
  | nil => exact .nil
  | cons hab hrest ih =>
    cases i with
    | zero => exact hrest
    | succ i => exact .cons hab (ih i)

theorem forall₂_set (h : List.Forall₂ R l l') {i : Nat} {a : α}
    (hi : ∀ b, l'[i]? = some b → R a b) : List.Forall₂ R (l.set i a) l' := by
  induction h generalizing i with
  | nil => exact .nil
  | cons hab hrest ih =>
    cases i with
    | zero => exact .cons (hi _ rfl) hrest
    | succ i => exact .cons hab (ih hi)

theorem forall₂_getElem? (h : List.Forall₂ R l l') {i : Nat} {a : α} (ha : l[i]? = some a) :
    ∃ b, l'[i]? = some b ∧ R a b := by
  induction h generalizing i with
  | nil => cases ha
  | cons hab hrest ih =>
    cases i with
    | zero =>
      cases ha
      exact ⟨_, rfl, hab⟩
    | succ i => exact ih ha

end Beside

/-! ## Where it comes from -/

section Invariant

variable {Hash : Type} {site : Site Hash} {w : World}

/-- A login has answered with the session. -/
def Given (site : Site Hash) (handled : List Tokens.AuthRequest) (x : StoredSession) : Prop :=
  ∃ g, site.server.Granted site.throttles handled g ∧ x = site.session g

/-- A login has handed the token out. -/
def HandedOut (site : Site Hash) (handled : List Tokens.AuthRequest) (token : String) : Prop :=
  ∃ g, site.server.Granted site.throttles handled g ∧ token = String.ofList g.token

theorem Given.handedOut {handled : List Tokens.AuthRequest} {x : StoredSession}
    (h : Given site handled x) : HandedOut site handled x.token := by
  obtain ⟨g, hg, rfl⟩ := h
  exact ⟨g, hg, rfl⟩

/-- The server reads the login after `before`. -/
def Site.passphraseRead (site : Site Hash) (before : List Tokens.AuthRequest) (passphrase : Text)
    (now mintedAt : Time) : Answer :=
  site.loginAnswer (site.server.after site.throttles before) ⟨⟨now, .login passphrase⟩, mintedAt⟩

/-- A call is the request beside it, and its answer is the server's. -/
structure Fits (site : Site Hash) (handled : List Tokens.AuthRequest) (c : Call) (r : ApiRequest) :
    Prop where
  isLogin : r.isLogin = c.passphrase.isSome
  token : ∀ token, r.token = some token → HandedOut site handled token
  login : ∀ passphrase now answer, c = ⟨some passphrase, some (now, answer)⟩ →
    ∃ before mintedAt later, handled = before ++ ⟨⟨now, .login passphrase⟩, mintedAt⟩ :: later ∧
      answer = site.passphraseRead before passphrase now mintedAt
  authed : ∀ now answer, c = ⟨none, some (now, answer)⟩ → answer = site.authedAnswer now r

/-- What the phone holds was handed out by logins, and what it is answered is what the server
says. -/
structure Inv (site : Site Hash) (w : World) : Prop where
  sessions : ∀ x, Holds w.phone x → Given site w.handled x
  ref : ∀ token, w.phone.tokenRef = some token → HandedOut site w.handled token
  calls : List.Forall₂ (Fits site w.handled) w.calls w.phone.requests

theorem granted_append {handled : List Tokens.AuthRequest} {g : Tokens.Grant}
    (h : site.server.Granted site.throttles handled g) (more : List Tokens.AuthRequest) :
    site.server.Granted site.throttles (handled ++ more) g := by
  obtain ⟨before, r, later, rfl, hr⟩ := h
  exact ⟨before, r, later ++ more, by rw [List.append_assoc, List.cons_append], hr⟩

theorem HandedOut.append {handled : List Tokens.AuthRequest} {token : String}
    (h : HandedOut site handled token) (more : List Tokens.AuthRequest) :
    HandedOut site (handled ++ more) token := by
  obtain ⟨g, hg, htoken⟩ := h
  exact ⟨g, granted_append hg more, htoken⟩

theorem Fits.append {handled : List Tokens.AuthRequest} {c : Call} {r : ApiRequest}
    (h : Fits site handled c r) (more : List Tokens.AuthRequest) :
    Fits site (handled ++ more) c r := by
  refine ⟨h.isLogin, fun token ht => (h.token token ht).append more, ?_, h.authed⟩
  intro passphrase now answer hc
  obtain ⟨before, mintedAt, later, rfl, hanswer⟩ := h.login passphrase now answer hc
  exact ⟨before, mintedAt, later ++ more, by rw [List.append_assoc, List.cons_append], hanswer⟩

/-- Another client's login changes nothing of this. -/
theorem Inv.append (h : Inv site w) (more : List Tokens.AuthRequest) :
    Inv site { w with handled := w.handled ++ more } where
  sessions x hx := by
    obtain ⟨g, hg, hsession⟩ := h.sessions x hx
    exact ⟨g, granted_append hg more, hsession⟩
  ref token ht := (h.ref token ht).append more
  calls := h.calls.imp fun _ _ hfits => hfits.append more

theorem fits_new {handled : List Tokens.AuthRequest} {tokenRef : Option String}
    (h : ∀ token, tokenRef = some token → HandedOut site handled token)
    (passphrase : Option Text) :
    Fits site handled ⟨passphrase, none⟩ (newRequest tokenRef passphrase.isSome) where
  isLogin := rfl
  token token ht := h token (Option.filter_eq_some_iff.1 ht).1
  login _ _ _ hc := by cases hc
  authed _ _ hc := by cases hc

theorem granted_of_loginAnswer {t : ThrottleTable} {r : Tokens.AuthRequest} {x : StoredSession}
    (h : site.loginAnswer t r = .granted x) :
    ∃ g, site.server.granted t r = some g ∧ x = site.session g := by
  unfold Site.loginAnswer at h
  split at h
  · rename_i g hg
    cases h
    exact ⟨g, hg, rfl⟩
  · split at h
    · split at h <;> cases h
    · cases h

theorem authedAnswer_ne_granted (site : Site Hash) (now : Time) (r : ApiRequest)
    (x : StoredSession) : site.authedAnswer now r ≠ .granted x := by
  unfold Site.authedAnswer
  split <;> exact fun h => by cases h

/-- A session is the answer to a login only, and given by it. -/
theorem Fits.given {handled : List Tokens.AuthRequest} {c : Call} {r : ApiRequest}
    (h : Fits site handled c r) {now : Time} {x : StoredSession}
    (hserved : c.served = some (now, .granted x)) :
    r.isLogin = true ∧ Given site handled x := by
  obtain ⟨passphrase, served⟩ := c
  cases hserved
  cases passphrase with
  | none => exact absurd (h.authed _ _ rfl).symm (authedAnswer_ne_granted site now r x)
  | some passphrase =>
    obtain ⟨before, mintedAt, later, hhandled, hanswer⟩ := h.login _ _ _ rfl
    obtain ⟨g, hg, hx⟩ := granted_of_loginAnswer hanswer.symm
    exact ⟨h.isLogin, g, ⟨before, _, later, hhandled, hg⟩, hx⟩

/-- A step of the phone, with the calls that are left of it. -/
theorem inv_phone (h : Inv site w) {phone : AuthStore} {calls : List Call}
    (hnew : NothingNew w.phone phone)
    (hcalls : List.Forall₂ (Fits site w.handled) calls phone.requests) :
    Inv site ⟨phone, calls, w.handled⟩ where
  sessions x hx := h.sessions x (hnew.holds x hx)
  ref token ht := by
    rcases hnew.ref token ht with href | ⟨x, hheld, rfl⟩
    · exact h.ref token href
    · exact (h.sessions x hheld).handedOut
  calls := hcalls

theorem inv_serve (h : Inv site w) (i : Nat) (now mintedAt : Time) :
    Inv site (site.serve w i now mintedAt) := by
  unfold Site.serve
  split
  · rename_i passphrase r hc hr
    have hmore := h.append [⟨⟨now, .login passphrase⟩, mintedAt⟩]
    refine ⟨hmore.sessions, hmore.ref, forall₂_set hmore.calls fun r' hr' => ?_⟩
    obtain ⟨r'', hr'', hfits⟩ := forall₂_getElem? hmore.calls hc
    cases hr'.symm.trans hr''
    refine ⟨hfits.isLogin, hfits.token, fun p now' answer hserved => ?_, fun _ _ hserved => ?_⟩
    · cases hserved
      exact ⟨w.handled, mintedAt, [], rfl, rfl⟩
    · cases hserved
  · rename_i r hc hr
    refine ⟨h.sessions, h.ref, forall₂_set h.calls fun r' hr' => ?_⟩
    obtain ⟨r'', hr'', hfits⟩ := forall₂_getElem? h.calls hc
    cases hr'.symm.trans hr''
    cases hr.symm.trans hr'
    refine ⟨hfits.isLogin, hfits.token, fun _ _ _ hserved => ?_, fun now' answer hserved => ?_⟩
    · cases hserved
    · cases hserved
      rfl
  · exact h

theorem inv_deliver (h : Inv site w) (i : Nat) : Inv site (site.deliver w i) := by
  unfold Site.deliver
  split
  · rename_i passphrase now answer hc
    obtain ⟨r, hr, hfits⟩ := forall₂_getElem? h.calls hc
    have herase := forall₂_eraseIdx h.calls i
    have hrest : ∀ unauthorized, Inv site
        ⟨w.phone.answer i unauthorized, w.calls.eraseIdx i, w.handled⟩ := by
      intro unauthorized
      refine inv_phone h (nothingNew_answer w.phone i unauthorized) ?_
      rw [requests_answer]
      exact herase
    cases answer with
    | granted next =>
      obtain ⟨hlogin, hgiven⟩ := hfits.given rfl
      refine ⟨fun x hx => ?_, fun token ht => ?_, ?_⟩
      · rcases holds_grant hx with hheld | rfl
        · exact h.sessions x hheld
        · exact hgiven
      · exact h.ref token ((tokenRef_grant w.phone i next).symm.trans ht)
      · exact (requests_grant hr hlogin next).symm ▸ herase
    | unauthorized => exact hrest true
    | other => exact hrest false
  · exact h

theorem inv_flush (h : Inv site w) : Inv site (Site.flush w) := by
  refine inv_phone h (nothingNew_flush w.phone) ?_
  have hsession : ∀ token, w.phone.session.map StoredSession.token = some token →
      HandedOut site w.handled token := by
    intro token ht
    obtain ⟨x, hx, rfl⟩ := Option.map_eq_some_iff.1 ht
    exact (h.sessions x (Or.inl hx)).handedOut
  rcases requests_flush w.phone with hsame | hsent
  · rw [hsame, Nat.sub_self, List.replicate_zero, List.append_nil]
    exact h.calls
  · rw [hsent, List.length_append, List.length_singleton, Nat.add_sub_cancel_left]
    exact List.rel_append h.calls (.cons (fits_new hsession none) .nil)

theorem inv_start (site : Site Hash) : Inv site World.start where
  sessions x hx := by rcases hx with hx | hx | hx | hx <;> cases hx
  ref token ht := by cases ht
  calls := .nil

/-- **Every step keeps it.** -/
theorem inv_step (h : Inv site w) (e : Event) : Inv site (site.step w e) := by
  have hresume := requests_resume site.dateParse w.phone
  cases e with
  | send =>
    exact inv_phone h (nothingNew_request w.phone false)
      (List.rel_append h.calls (.cons (fits_new h.ref none) .nil))
  | login passphrase =>
    exact inv_phone h (nothingNew_request w.phone true)
      (List.rel_append h.calls (.cons (fits_new h.ref (some passphrase)) .nil))
  | serve i now mintedAt => exact inv_serve h i now mintedAt
  | deliver i => exact inv_deliver h i
  | fail i =>
    refine inv_phone h (nothingNew_answer w.phone i false) ?_
    rw [requests_answer]
    exact forall₂_eraseIdx h.calls i
  | elsewhere r => exact h.append [r]
  | resumeLogin i =>
    refine inv_phone h (nothingNew_resumeLogin w.phone i) ?_
    rw [(hresume i 0).1]
    exact h.calls
  | logout => exact inv_phone h (nothingNew_logout w.phone) h.calls
  | resumeLogout i =>
    refine inv_phone h (nothingNew_resumeLogout w.phone i) ?_
    rw [(hresume i 0).2.1]
    exact h.calls
  | resumeStartup now =>
    refine inv_phone h (nothingNew_resumeStartup site.dateParse w.phone now) ?_
    rw [(hresume 0 now).2.2]
    exact h.calls
  | flush => exact inv_flush h
  | restart =>
    refine ⟨fun x hx => ?_, fun token ht => (by cases ht), .nil⟩
    rcases hx with hx | hx | hx | hx
    · cases hx
    · exact h.sessions x (Or.inr (Or.inl hx))
    · cases hx
    · exact h.sessions x (Or.inr (Or.inl (Startup.loading.inj hx)))

end Invariant

/-! ## Why a request is refused -/

section Refusals

variable {Hash : Type} {site : Site Hash} {handled : List Tokens.AuthRequest}

theorem granted_user {server : Tokens.AuthServer Hash} {t : ThrottleTable} {r : Tokens.AuthRequest}
    {g : Tokens.Grant} (h : server.granted t r = some g) :
    ∃ user ∈ server.users.rows, user.id = g.userId := by
  unfold Tokens.AuthServer.granted at h
  split at h
  · obtain ⟨user, hhead, rfl⟩ := Option.map_eq_some_iff.1 h
    exact ⟨user, List.mem_of_mem_head? hhead, rfl⟩
  · cases h

theorem granted_token_ne_nil {server : Tokens.AuthServer Hash} {t : ThrottleTable}
    {r : Tokens.AuthRequest} {g : Tokens.Grant} (h : server.granted t r = some g) :
    g.token ≠ [] := by
  obtain ⟨-, -, htoken, -, -⟩ := server.granted_eq_some h
  rw [htoken]
  exact server.jwt.encode_ne_nil _ _

theorem HandedOut.ne_empty {token : String} (h : HandedOut site handled token) : token ≠ "" := by
  obtain ⟨g, ⟨before, r, later, -, hr⟩, rfl⟩ := h
  intro hempty
  refine granted_token_ne_nil hr ?_
  rw [← String.toList_ofList (l := g.token), hempty]
  rfl

/-- The server lets the bearer of a token in for the time of the token. -/
theorem currentUser_eq_none_iff {g : Tokens.Grant}
    (h : site.server.Granted site.throttles handled g) (now : Time) :
    Tokens.currentUser site.server.jwt site.server.users site.server.secret now
        (some (Tokens.phoneHeader g.token)) = none ↔ ¬ g.Current now := by
  obtain ⟨before, r, later, -, hr⟩ := h
  obtain ⟨user, huser, hid⟩ := granted_user hr
  have hgranted : ∀ user, Tokens.currentUser site.server.jwt site.server.users site.server.secret
      now (some (Tokens.phoneHeader g.token)) = some user ↔
        g.Current now ∧ user ∈ site.server.users.rows ∧ user.id = g.userId :=
    site.server.currentUser_granted hr
      (Tokens.bearerToken_phoneHeader (granted_token_ne_nil hr))
  constructor
  · intro hnone hcurrent
    cases hnone.symm.trans ((hgranted user).2 ⟨hcurrent, huser, hid⟩)
  · intro hover
    refine Option.eq_none_iff_forall_ne_some.2 fun user' hsome => ?_
    exact hover ((hgranted user').1 hsome).1

/-- **A request is refused for its token**: for having none, or one whose time is over. -/
theorem authedAnswer_iff {now : Time} {r : ApiRequest}
    (htoken : ∀ token, r.token = some token → HandedOut site handled token) :
    site.authedAnswer now r = .unauthorized ↔ ∀ g, site.server.Granted site.throttles handled g →
      r.token = some (String.ofList g.token) → ¬ g.Current now := by
  have hnone : site.authedAnswer now r = .unauthorized ↔
      Tokens.currentUser site.server.jwt site.server.users site.server.secret now
        (r.token.map fun token => Tokens.phoneHeader token.toList) = none := by
    unfold Site.authedAnswer
    split
    · rename_i h
      exact iff_of_true rfl h
    · rename_i user h
      exact iff_of_false (fun heq => by cases heq) (fun heq => by cases h.symm.trans heq)
  rw [hnone]
  constructor
  · intro h g hg hr
    rw [hr, Option.map_some, String.toList_ofList] at h
    exact (currentUser_eq_none_iff hg now).1 h
  · intro h
    cases hr : r.token with
    | none => rfl
    | some token =>
      obtain ⟨g, hg, rfl⟩ := htoken token hr
      rw [Option.map_some, String.toList_ofList]
      exact (currentUser_eq_none_iff hg now).2 (h g hg hr)

/-- A login is refused for its passphrase. -/
theorem judged_of_unauthorized {before : List Tokens.AuthRequest} {passphrase : Text}
    {now mintedAt : Time}
    (h : site.passphraseRead before passphrase now mintedAt = .unauthorized) :
    judgedAfter site.server.throttle site.server.platform site.server.clientIp site.throttles
      (before.map Tokens.AuthRequest.request) ⟨now, .login passphrase⟩ = some false := by
  unfold Site.passphraseRead Site.loginAnswer at h
  split at h
  · cases h
  · split at h
    · rename_i outcome houtcome
      rw [judgedAfter]
      change (servePassphrase _ _ _ (site.server.after site.throttles before) _).1.judged = _
      rw [houtcome]
      cases outcome with
      | wrong lockedUntil => rfl
      | refused lockedUntil => cases h
      | right => cases h
      | failed => rfl
    · cases h

end Refusals

/-! ## In every run -/

/-- The phone has the token, or sends it. -/
def Shows (s : AuthStore) (token : String) : Prop :=
  s.tokenRef = some token ∨ (∃ x, Holds s x ∧ x.token = token) ∨
    ∃ r ∈ s.requests, r.token = some token

theorem Inv.shows {Hash : Type} {site : Site Hash} {w : World} (h : Inv site w) {token : String}
    (hshows : Shows w.phone token) : HandedOut site w.handled token := by
  rcases hshows with href | ⟨x, hx, rfl⟩ | ⟨r, hr, htoken⟩
  · exact h.ref token href
  · exact (h.sessions x hx).handedOut
  · obtain ⟨i, hi⟩ := List.mem_iff_getElem?.1 hr
    obtain ⟨c, -, hfits⟩ := forall₂_getElem? h.calls.flip hi
    exact hfits.token token htoken

/-- **The phone's tokens and the server's 401s.**  In every interleaving of the phone, the server,
starts of the app and the logins of others, every token that the phone has or sends was handed out
by a login that compared the passphrase and found it right.  A request that is no login is answered
by a 401 exactly when it carries no token whose time lasts as the server reads it; a login only if
its passphrase was compared and was wrong. -/
theorem tokens_granted {Hash : Type} (site : Site Hash) (es : List Event) :
    let w := Runs.run site.step World.start es
    (∀ token, Shows w.phone token → ∃ before r later g, w.handled = before ++ r :: later ∧
      judgedAfter site.server.throttle site.server.platform site.server.clientIp site.throttles
        (before.map Tokens.AuthRequest.request) r.request = some true ∧
      site.server.granted (site.server.after site.throttles before) r = some g ∧
      token = String.ofList g.token) ∧
    ∀ (i : Nat) (c : Call) (r : ApiRequest) (now : Time) (answer : Answer),
      w.calls[i]? = some c → w.phone.requests[i]? = some r → c.served = some (now, answer) →
      (c.passphrase = none → (answer = .unauthorized ↔
        ∀ g, site.server.Granted site.throttles w.handled g →
          r.token = some (String.ofList g.token) → ¬ g.Current now)) ∧
      ∀ passphrase, c.passphrase = some passphrase → answer = .unauthorized →
        ∃ before mintedAt later,
          w.handled = before ++ ⟨⟨now, .login passphrase⟩, mintedAt⟩ :: later ∧
          judgedAfter site.server.throttle site.server.platform site.server.clientIp
            site.throttles (before.map Tokens.AuthRequest.request) ⟨now, .login passphrase⟩ =
              some false := by
  have hinv : Inv site (Runs.run site.step World.start es) :=
    Runs.inv_run (I := Inv site) (fun _ e h => inv_step h e) (inv_start site) es
  refine ⟨fun token hshows => ?_, fun i c r now answer hc hr hserved => ⟨?_, ?_⟩⟩
  · obtain ⟨g, ⟨before, r, later, hhandled, hg⟩, htoken⟩ := hinv.shows hshows
    obtain ⟨-, hjudged, -, -, -⟩ := site.server.granted_eq_some hg
    exact ⟨before, r, later, g, hhandled, hjudged, hg, htoken⟩
  · intro hpassphrase
    obtain ⟨r', hr', hfits⟩ := forall₂_getElem? hinv.calls hc
    cases hr.symm.trans hr'
    have hanswer := hfits.authed now answer (by rw [← hpassphrase, ← hserved])
    rw [hanswer]
    exact authedAnswer_iff hfits.token
  · intro passphrase hpassphrase hrefused
    obtain ⟨r', hr', hfits⟩ := forall₂_getElem? hinv.calls hc
    obtain ⟨before, mintedAt, later, hhandled, hanswer⟩ :=
      hfits.login passphrase now answer (by rw [← hpassphrase, ← hserved])
    exact ⟨before, mintedAt, later, hhandled,
      judged_of_unauthorized (hanswer.symm.trans hrefused)⟩

end SignIn

end MeJournal
