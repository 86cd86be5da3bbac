import MeJournal.Mobile.SignIn

/-!
# How long the phone is signed in

The phone and its server as in `Mobile.SignIn`, once a login is through.

* `SignedIn` — the phone has the session, or is about to, and waits for nothing that takes it away.
* `signedIn_step`, `signed_in_lasts` — it stays signed in as long as its tokens last, also when the
  app is closed and opened.
* The last example is a screen that does not wait for the token.
-/

namespace MeJournal

namespace SignIn

/-! ## How long the phone is signed in -/

/-- The phone is signed in with the session, or about to be, having been started anew.  Nothing that
it waits for can change that: no call of `login` or `logout`, no request without a token, no 401. -/
structure SignedIn (x : StoredSession) (w : World) : Prop where
  stored : w.phone.stored = some x
  place : (w.phone.startup = .loading (some x) ∧ w.phone.session = none ∧
      w.phone.tokenRef = none) ∨
    (w.phone.startup = .done ∧ w.phone.session = some x ∧ w.phone.status = .authenticated ∧
      (w.phone.tokenRef = none ∨ w.phone.tokenRef = some x.token))
  saving : w.phone.saving = []
  leaving : w.phone.leaving = []
  tokens : ∀ r ∈ w.phone.requests, r.token ≠ none
  calls : ∀ c ∈ w.calls, c.passphrase = none ∧ ∀ now, c.served ≠ some (now, .unauthorized)

/-- The user does not log in or out, the screens wait for the token before they send, and the times
of the tokens last: on the server as it reads a request, and on the phone as it starts. -/
def Lasting {Hash : Type} (site : Site Hash) (x : StoredSession) (w : World) : Event → Prop
  | .login _ | .logout => False
  | .send => w.phone.tokenRef ≠ none
  | .serve i now _ => ∀ r token, w.phone.requests[i]? = some r → r.token = some token →
    ∃ g, site.server.Granted site.throttles w.handled g ∧ token = String.ofList g.token ∧
      g.Current now
  | .resumeStartup now => isExpired site.dateParse x.expiresAt now = false
  | _ => True

section Lasts

variable {Hash : Type} {site : Site Hash} {x : StoredSession} {w : World}

theorem newRequest_token {token : String} (h : token ≠ "") (isLogin : Bool) :
    (newRequest (some token) isLogin).token ≠ none := by
  simp [newRequest, h]

theorem answer_false (s : AuthStore) (i : Nat) :
    s.answer i false = { s with requests := s.requests.eraseIdx i } := by
  unfold AuthStore.answer
  split
  · rename_i hnone
    rw [List.eraseIdx_of_length_le (List.getElem?_eq_none_iff.1 hnone)]
  · rfl

/-- An answer that is no 401, or the loss of a request. -/
theorem SignedIn.drop (h : SignedIn x w) (i : Nat) :
    SignedIn x { w with phone := w.phone.answer i false, calls := w.calls.eraseIdx i } := by
  rw [answer_false]
  exact ⟨h.stored, h.place, h.saving, h.leaving,
    fun r hr => h.tokens r (List.mem_of_mem_eraseIdx hr),
    fun c hc => h.calls c (List.mem_of_mem_eraseIdx hc)⟩

/-- A request with the token of the session. -/
theorem SignedIn.sent (h : SignedIn x w) {phone : AuthStore} {r : ApiRequest}
    (hrest : phone = { w.phone with
      requests := w.phone.requests ++ [r], tokenRef := phone.tokenRef,
      verifiedRef := phone.verifiedRef })
    (href : w.phone.startup = .done ∧ phone.tokenRef = some x.token) (htoken : r.token ≠ none) :
    SignedIn x { w with phone := phone, calls := w.calls ++ [⟨none, none⟩] } := by
  have hplace : w.phone.session = some x ∧ w.phone.status = .authenticated := by
    rcases h.place with ⟨hloading, -, -⟩ | ⟨-, hsession, hstatus, -⟩
    · cases hloading.symm.trans href.1
    · exact ⟨hsession, hstatus⟩
  have htokenRef := href.2
  generalize phone.tokenRef = tokenRef at hrest htokenRef
  generalize phone.verifiedRef = verifiedRef at hrest
  subst hrest
  refine ⟨h.stored, Or.inr ⟨href.1, hplace.1, hplace.2, Or.inr htokenRef⟩, h.saving, h.leaving,
    fun r' hr' => ?_, fun c hc => ?_⟩
  · rcases List.mem_append.1 hr' with hold | hnew
    · exact h.tokens r' hold
    · cases List.mem_singleton.1 hnew
      exact htoken
  · rcases List.mem_append.1 hc with hold | hnew
    · exact h.calls c hold
    · cases List.mem_singleton.1 hnew
      exact ⟨rfl, fun now heq => by cases heq⟩

theorem SignedIn.token_ne_empty (hinv : Inv site w) (h : SignedIn x w) : x.token ≠ "" :=
  (hinv.sessions x (Or.inr (Or.inl h.stored))).handedOut.ne_empty

theorem signedIn_serve (hinv : Inv site w) (h : SignedIn x w) {i : Nat} {now mintedAt : Time}
    (hlasting : Lasting site x w (.serve i now mintedAt)) :
    SignedIn x (site.serve w i now mintedAt) := by
  unfold Site.serve
  split
  · -- no login is on its way
    rename_i passphrase r hc hr
    cases (h.calls _ (List.mem_of_getElem? hc)).1
  · rename_i r hc hr
    refine ⟨h.stored, h.place, h.saving, h.leaving, h.tokens, fun c hmem => ?_⟩
    rcases List.mem_or_eq_of_mem_set hmem with hold | rfl
    · exact h.calls c hold
    · refine ⟨rfl, fun now' hserved => ?_⟩
      obtain ⟨r', hr', hfits⟩ := forall₂_getElem? hinv.calls hc
      cases hr.symm.trans hr'
      have hrefused : site.authedAnswer now r = .unauthorized :=
        (Prod.ext_iff.1 (Option.some.inj hserved)).2
      obtain ⟨token, htoken⟩ :=
        Option.ne_none_iff_exists'.1 (h.tokens r (List.mem_of_getElem? hr))
      obtain ⟨g, hg, rfl, hcurrent⟩ := hlasting r token hr htoken
      exact (authedAnswer_iff hfits.token).1 hrefused g hg htoken hcurrent
  · exact h

theorem signedIn_deliver (hinv : Inv site w) (h : SignedIn x w) (i : Nat) :
    SignedIn x (site.deliver w i) := by
  unfold Site.deliver
  split
  · rename_i passphrase now answer hc
    obtain ⟨hpassphrase, hserved⟩ := h.calls _ (List.mem_of_getElem? hc)
    cases answer with
    | granted next =>
      obtain ⟨r, -, hfits⟩ := forall₂_getElem? hinv.calls hc
      have hlogin := (hfits.given rfl).1
      rw [hfits.isLogin, hpassphrase] at hlogin
      cases hlogin
    | unauthorized => exact absurd rfl (hserved now)
    | other => exact h.drop i
  · exact h

theorem signedIn_startup (h : SignedIn x w) {now : Int}
    (hlasting : Lasting site x w (.resumeStartup now)) :
    SignedIn x { w with phone := w.phone.resumeStartup site.dateParse now } := by
  rcases h.place with ⟨hloading, -, href⟩ | ⟨hdone, -⟩
  · have hphone : w.phone.resumeStartup site.dateParse now =
        { w.phone with
          session := some x, status := .authenticated, startup := .done,
          restored := w.phone.restored ++ [x] } := by
      have hexpired : isExpired site.dateParse x.expiresAt now = false := hlasting
      rw [AuthStore.resumeStartup, hloading]
      simp only [hexpired, Bool.false_eq_true, if_false]
    rw [hphone]
    exact ⟨h.stored, Or.inr ⟨rfl, rfl, rfl, Or.inl href⟩, h.saving, h.leaving, h.tokens, h.calls⟩
  · have hphone : w.phone.resumeStartup site.dateParse now = w.phone := by
      rw [AuthStore.resumeStartup, hdone]
    rw [hphone]
    exact h

theorem signedIn_flush (hinv : Inv site w) (h : SignedIn x w) : SignedIn x (Site.flush w) := by
  rcases h.place with ⟨hloading, hsession, href⟩ | ⟨hdone, hsession, hstatus, -⟩
  · have hnone : w.phone.session.map StoredSession.token = w.phone.tokenRef := by
      rw [hsession, href, Option.map_none]
    have hphone : w.phone.flush = w.phone := by
      unfold AuthStore.flush
      rw [hnone]
      exact if_pos (by simp [hsession])
    unfold Site.flush
    rw [hphone, Nat.sub_self, List.replicate_zero, List.append_nil]
    exact h
  · have htoken := h.token_ne_empty hinv
    by_cases hverified : w.phone.verifiedRef = true
    · have hphone : w.phone.flush = { w.phone with tokenRef := some x.token } := by
        unfold AuthStore.flush
        simp only [hverified, hsession, Option.map_some, Bool.or_true, if_true]
      unfold Site.flush
      rw [hphone, Nat.sub_self, List.replicate_zero, List.append_nil]
      exact ⟨h.stored, Or.inr ⟨hdone, hsession, hstatus, Or.inr rfl⟩, h.saving, h.leaving,
        h.tokens, h.calls⟩
    · have hphone : w.phone.flush = { w.phone with
          tokenRef := some x.token
          verifiedRef := true
          requests := w.phone.requests ++ [newRequest (some x.token) false] } := by
        unfold AuthStore.flush AuthStore.request newRequest
        simp [hverified, hsession, hstatus]
      have hcount : w.phone.flush.requests.length - w.phone.requests.length = 1 := by
        rw [hphone]
        simp
      unfold Site.flush
      rw [hcount]
      exact h.sent (by rw [hphone]) ⟨hdone, by rw [hphone]⟩ (newRequest_token htoken false)

/-- **A step of that kind keeps the phone signed in.** -/
theorem signedIn_step (hinv : Inv site w) (h : SignedIn x w) {e : Event}
    (hlasting : Lasting site x w e) : SignedIn x (site.step w e) := by
  cases e with
  | send =>
    have href : w.phone.startup = .done ∧ w.phone.tokenRef = some x.token := by
      rcases h.place with ⟨-, -, hnone⟩ | ⟨hdone, -, -, hnone | hsome⟩
      · exact absurd hnone hlasting
      · exact absurd hnone hlasting
      · exact ⟨hdone, hsome⟩
    have htoken : (newRequest w.phone.tokenRef false).token ≠ none := by
      rw [href.2]
      exact newRequest_token (h.token_ne_empty hinv) false
    exact h.sent rfl href htoken
  | login passphrase => exact hlasting.elim
  | serve i now mintedAt => exact signedIn_serve hinv h hlasting
  | deliver i => exact signedIn_deliver hinv h i
  | fail i => exact h.drop i
  | elsewhere r => exact ⟨h.stored, h.place, h.saving, h.leaving, h.tokens, h.calls⟩
  | resumeLogin i =>
    have hphone : w.phone.resumeLogin i = w.phone := by
      rw [AuthStore.resumeLogin, h.saving, List.getElem?_nil]
    rw [Site.step, hphone]
    exact h
  | logout => exact hlasting.elim
  | resumeLogout i =>
    have hphone : w.phone.resumeLogout i = w.phone := by
      rw [AuthStore.resumeLogout, h.leaving, List.getElem?_nil]
    rw [Site.step, hphone]
    exact h
  | resumeStartup now => exact signedIn_startup h hlasting
  | flush => exact signedIn_flush hinv h
  | restart =>
    refine ⟨h.stored, Or.inl ⟨?_, rfl, rfl⟩, rfl, rfl, fun r hr => ?_, fun c hc => ?_⟩
    · exact congrArg Startup.loading h.stored
    · cases hr
    · cases hc

end Lasts

/-- **How long a login lasts.**  From any state of any run in which the phone is signed in and
waits for nothing that was sent without a token, it stays signed in, and no request of it is
refused, whatever the order in which the server reads the requests, answers arrive or are lost, the
app is rendered, closed and opened, and others log in; as long as the user does not log in or out,
the screens send nothing before they have the token, and the tokens' times last. -/
theorem signed_in_lasts {Hash : Type} (site : Site Hash) (x : StoredSession)
    (before es : List Event) (hsignedIn : SignedIn x (Runs.run site.step World.start before))
    (hlasting : ∀ p ∈ Runs.steps site.step (Runs.run site.step World.start before) es,
      Lasting site x p.1 p.2) :
    ∀ w ∈ Runs.states site.step (Runs.run site.step World.start before) es, SignedIn x w := by
  have hinv : Inv site (Runs.run site.step World.start before) :=
    Runs.inv_run (I := Inv site) (fun _ e h => inv_step h e) (inv_start site) before
  have hstep : ∀ (w : World) (e : Event), Inv site w ∧ SignedIn x w → Lasting site x w e →
      Inv site (site.step w e) ∧ SignedIn x (site.step w e) :=
    fun w e h hl => ⟨inv_step h.1 e, signedIn_step h.1 h.2 hl⟩
  exact fun w hw => (Runs.inv_states_of_steps hstep ⟨hinv, hsignedIn⟩ hlasting w hw).2

/-! ## A day signed in -/

/-- One user, whose tokens last a day. -/
def sampleSite : Site Text where
  server :=
    { jwt := Tokens.plainJwt
      secret := "s".toList
      expiresDays := 1
      throttle := ⟨5, 900, 900⟩
      users := ⟨[⟨7, "pw".toList⟩], by simp⟩
      verifyPassphrase := fun passphrase hash => passphrase = hash
      clientIp := "::1".toList }
  throttles := Table.empty
  dateText := fun t => String.ofList (Tokens.intText t)
  dateParse := fun text => some (Tokens.ofIntText text.toList / 1000)

def sampleLogin : Tokens.AuthRequest := ⟨⟨0, .login "pw".toList⟩, 0⟩

def sampleGrant : Tokens.Grant where
  userId := 7
  mintedAt := 0
  token := Tokens.plainEncode (Tokens.mintedClaims 0 7 (Tokens.days 1)) "s".toList
  expiresAt := Tokens.days 1

/-- A login on a new phone. -/
def firstLogin : List Event :=
  [.resumeStartup 0, .login "pw".toList, .serve 0 0 0, .deliver 0, .resumeLogin 0]

/-- A request whose answer is lost, a new start, and the request that verifies the session. -/
def nextStart : List Event :=
  [.flush, .send, .serve 0 1000000 1000000, .fail 0, .restart, .resumeStartup 2000, .flush,
    .serve 0 3000000 3000000, .deliver 0]

theorem lasting_serve {w : World} {now : Time} (mintedAt : Time)
    (hrequests : w.phone.requests[0]? = some ⟨some (String.ofList sampleGrant.token), false⟩)
    (hhandled : w.handled = [sampleLogin]) (hcurrent : sampleGrant.Current now) :
    Lasting sampleSite (sampleSite.session sampleGrant) w (.serve 0 now mintedAt) := by
  intro r token hr htoken
  cases hrequests.symm.trans hr
  cases htoken
  refine ⟨sampleGrant, ⟨[], sampleLogin, [], hhandled, ?_⟩, rfl, hcurrent⟩
  decide +kernel

theorem signed_in_lasts_nextStart :
    SignedIn (sampleSite.session sampleGrant)
      (Runs.run sampleSite.step (Runs.run sampleSite.step World.start firstLogin) nextStart) := by
  refine signed_in_lasts sampleSite (sampleSite.session sampleGrant) firstLogin nextStart ?_ ?_ _
    (Runs.run_mem_states _ _ _)
  · have hcalls : (Runs.run sampleSite.step World.start firstLogin).calls = [] := by
      decide +kernel
    refine ⟨?_, Or.inr ⟨?_, ?_, ?_, Or.inr ?_⟩, ?_, ?_, ?_, fun c hc => ?_⟩
    rotate_right
    · rw [hcalls] at hc
      cases hc
    all_goals decide +kernel
  · simp only [nextStart, Runs.steps_cons, Runs.steps_nil, List.forall_mem_cons, Lasting]
    refine ⟨trivial, ?_, lasting_serve 1000000 ?_ ?_ ⟨?_, ?_⟩, trivial, trivial, ?_, trivial,
      lasting_serve 3000000 ?_ ?_ ⟨?_, ?_⟩, trivial, by simp⟩
    all_goals decide +kernel

/-- A screen that sends while the session is still being loaded is refused, and signs it out. -/
example :
    let w := Runs.run sampleSite.step World.start (firstLogin ++
      [.restart, .send, .serve 0 1000000 1000000, .resumeStartup 2000, .flush, .deliver 0])
    w.phone.session = none ∧ w.phone.stored = none := by
  decide +kernel

end SignIn

end MeJournal
