import MeJournal.Auth.Attempts

/-!
# Every check of a passphrase

The three endpoints that compare a passphrase with the stored hash: `login` and
`verify_passphrase` of `app/api/auth.py`, and the `DELETE` of `app/api/memories.py` behind
`confirm_passphrase` of `app/core/security.py`, which no throttle guards.

* `rowOf_afterRequests` — the row of `login` and of `verify_passphrase` is the tally of the
  passphrases that were compared there.
* `rateLimited_iff` — passphrases are limited at all three endpoints exactly when the client itself
  pauses its deletes.
-/

namespace MeJournal

/-! ## The endpoints -/

/-- What the user table, the tokens and argon2 contribute; `Hash` is a stored passphrase hash. -/
structure AuthPlatform (Hash : Type) where
  /-- The hash of the user that `select(User).limit(1)` finds. -/
  owner : Option Hash
  /-- `current_user`, by the time and the `Authorization` header. -/
  currentUser : Time → Option Text → Option Hash
  /-- `verify_passphrase` of `app/core/security.py`. -/
  verifyPassphrase : Text → Hash → Bool

inductive PassphraseEndpoint where
  | login
  | verifyPassphrase
  | delete
  deriving DecidableEq

/-- What a request brings. -/
inductive PassphraseBody where
  | login (passphrase : Text)
  | verifyPassphrase (authorization : Option Text) (passphrase : Text)
  /-- `DELETE /memories/{id}` with its `X-Confirm-Passphrase` header. -/
  | delete (authorization confirmPassphrase : Option Text)
  deriving DecidableEq

structure PassphraseRequest where
  now : Time
  body : PassphraseBody
  deriving DecidableEq

def PassphraseRequest.endpoint (req : PassphraseRequest) : PassphraseEndpoint :=
  match req.body with
  | .login _ => .login
  | .verifyPassphrase _ _ => .verifyPassphrase
  | .delete _ _ => .delete

inductive PassphraseResponse where
  /-- 401, before any passphrase was looked at. -/
  | unauthorized
  | attempted (outcome : AttemptOutcome)
  /-- 401 or on to `delete_memory`. -/
  | confirmed (ok : Bool)
  deriving DecidableEq

/-- What the check of the passphrase said, if it was made. -/
def AttemptOutcome.judged : AttemptOutcome → Option Bool
  | .refused _ => none
  | .wrong _ | .failed => some false
  | .right => some true

def PassphraseResponse.judged : PassphraseResponse → Option Bool
  | .unauthorized => none
  | .attempted outcome => outcome.judged
  | .confirmed ok => some ok

section Endpoints

variable {Hash : Type} (settings : ThrottleSettings) (platform : AuthPlatform Hash)
  (clientIp : Text) (t : ThrottleTable) (now : Time)

def loginAction : Text := "login".toList

def verifyAction : Text := "verify_passphrase".toList

/-- `login`. -/
def login (passphrase : Text) : PassphraseResponse × ThrottleTable :=
  let r := attempt settings loginAction clientIp t
    ⟨now, platform.owner.any fun hash => platform.verifyPassphrase passphrase hash⟩
  (.attempted r.1, r.2)

/-- `verify_passphrase`, behind `current_user`. -/
def verifyPassphrase (authorization : Option Text) (passphrase : Text) :
    PassphraseResponse × ThrottleTable :=
  match platform.currentUser now authorization with
  | none => (.unauthorized, t)
  | some hash =>
    let r := attempt settings verifyAction clientIp t
      ⟨now, platform.verifyPassphrase passphrase hash⟩
    (.attempted r.1, r.2)

/-- `confirm_passphrase`: what the comparison says, if a passphrase was supplied. -/
def confirmPassphrase (supplied : Option Text) : Option Bool :=
  match supplied with
  | none => none
  | some supplied =>
    if supplied = [] then none
    else some (platform.owner.any fun hash => platform.verifyPassphrase supplied hash)

/-- `delete` up to `delete_memory`, behind `current_user` and `confirm_passphrase`. -/
def deleteConfirm (authorization supplied : Option Text) : PassphraseResponse :=
  match platform.currentUser now authorization with
  | none => .unauthorized
  | some _ =>
    match confirmPassphrase platform supplied with
    | none => .unauthorized
    | some ok => .confirmed ok

def servePassphrase (req : PassphraseRequest) : PassphraseResponse × ThrottleTable :=
  match req.body with
  | .login passphrase => login settings platform clientIp t req.now passphrase
  | .verifyPassphrase authorization passphrase =>
    verifyPassphrase settings platform clientIp t req.now authorization passphrase
  | .delete authorization supplied => (deleteConfirm platform req.now authorization supplied, t)

/-! ## Runs -/

/-- The table after `reqs`. -/
def afterRequests (reqs : List PassphraseRequest) : ThrottleTable :=
  Runs.run (fun t req => (servePassphrase settings platform clientIp t req).2) t reqs

/-- What the check of the passphrase says at `req` after `before`, if it is made. -/
def judgedAfter (before : List PassphraseRequest) (req : PassphraseRequest) : Option Bool :=
  (servePassphrase settings platform clientIp
    (afterRequests settings platform clientIp t before) req).1.judged

/-- The passphrases of `reqs` that were checked at `e`. -/
def judgedTries (e : PassphraseEndpoint) (reqs : List PassphraseRequest) :
    List (Limiter.Try Time) :=
  (Runs.steps (fun t req => (servePassphrase settings platform clientIp t req).2) t reqs).filterMap
    fun p => if p.2.endpoint = e then
      (servePassphrase settings platform clientIp p.1 p.2).1.judged.map fun ok => ⟨p.2.now, ok⟩
    else none

/-- After the wrong passphrase at `e` that is the last one the window allows, no passphrase is
checked at `e` for the time of the lock. -/
def RateLimited (e : PassphraseEndpoint) (reqs : List PassphraseRequest) : Prop :=
  ∀ before a between b, before ++ a :: (between ++ [b]) <+: reqs → a.endpoint = e →
    judgedAfter settings platform clientIp t before a = some false →
    (∃ r ∈ settings.policy.tally (judgedTries settings platform clientIp t e (before ++ [a])),
      r.count = settings.failures) →
    b.endpoint = e → b.now < a.now + settings.lock →
    judgedAfter settings platform clientIp t (before ++ a :: between) b = none

/-- The passphrase that a delete supplies, and whether it is the right one. -/
def deleteTry (req : PassphraseRequest) : Option (Limiter.Try Time) :=
  match req.body with
  | .delete authorization supplied =>
    (platform.currentUser req.now authorization).bind fun _ =>
      (confirmPassphrase platform supplied).map fun ok => ⟨req.now, ok⟩
  | _ => none

/-- The client supplies no passphrase with a delete for the time of the lock after its deletes have
used up a window. -/
def DeletesPause (reqs : List PassphraseRequest) : Prop :=
  ∀ before a between b, before ++ a :: (between ++ [b]) <+: reqs →
    deleteTry platform a = some ⟨a.now, false⟩ →
    (∃ r ∈ settings.policy.tally ((before ++ [a]).filterMap (deleteTry platform)),
      r.count = settings.failures) →
    (deleteTry platform b).isSome = true → a.now + settings.lock ≤ b.now

end Endpoints

/-! ## The throttled endpoints -/

variable {Hash : Type} {settings : ThrottleSettings} {platform : AuthPlatform Hash}
  {clientIp : Text} {t : ThrottleTable}

/-- The action under which the endpoint is throttled. -/
def PassphraseEndpoint.action : PassphraseEndpoint → Option Text
  | .login => some loginAction
  | .verifyPassphrase => some verifyAction
  | .delete => none

/-- What an attempt does to its row: nothing without a check, else a try that is not refused. -/
theorem attempt_record (action : Text) (a : Limiter.Try Time) :
    rowOf (attempt settings action clientIp t a).2 (throttleKey action clientIp) =
      match (attempt settings action clientIp t a).1.judged with
      | none => rowOf t (throttleKey action clientIp)
      | some ok => settings.policy.record (rowOf t (throttleKey action clientIp)) ⟨a.now, ok⟩ := by
  obtain ⟨hout, hrow, _⟩ := attempt_limiter settings action clientIp t a
  rw [hout, hrow]
  rcases Limiter.step_cases (p := settings.policy)
      (s := rowOf t (throttleKey action clientIp)) (a := a) with
    ⟨_, _, _, _, _, hout, heq⟩ | ⟨_, ⟨_, hout, heq⟩ | ⟨_, hout, heq⟩⟩
  · rw [hout, heq]
    rfl
  · rw [hout, heq]
    rfl
  · rw [hout, heq]
    rfl

theorem throttleKey_ne : throttleKey loginAction clientIp ≠ throttleKey verifyAction clientIp := by
  intro h
  exact absurd (List.cons.inj h).1 (by decide)

/-- **What a request does to the row of a throttled endpoint.** -/
theorem serve_row {e : PassphraseEndpoint} {action : Text} (he : e.action = some action)
    (req : PassphraseRequest) :
    rowOf (servePassphrase settings platform clientIp t req).2 (throttleKey action clientIp) =
      match (if req.endpoint = e then
        (servePassphrase settings platform clientIp t req).1.judged else none) with
      | none => rowOf t (throttleKey action clientIp)
      | some ok =>
        settings.policy.record (rowOf t (throttleKey action clientIp)) ⟨req.now, ok⟩ := by
  obtain ⟨now, body⟩ := req
  cases body with
  | login passphrase =>
    cases e with
    | login =>
      obtain rfl := Option.some.inj he
      exact attempt_record loginAction _
    | verifyPassphrase =>
      obtain rfl := Option.some.inj he
      have hframe := (attempt_limiter settings loginAction clientIp t
        ⟨now, platform.owner.any fun hash => platform.verifyPassphrase passphrase hash⟩).2.2
        _ throttleKey_ne.symm
      exact congrArg (Option.map AuthThrottle.row) hframe
    | delete => cases he
  | verifyPassphrase authorization passphrase =>
    cases huser : platform.currentUser now authorization with
    | none =>
      simp only [servePassphrase, verifyPassphrase, huser, PassphraseResponse.judged, ite_self]
    | some hash =>
      cases e with
      | login =>
        obtain rfl := Option.some.inj he
        have hframe := (attempt_limiter settings verifyAction clientIp t
          ⟨now, platform.verifyPassphrase passphrase hash⟩).2.2 _ throttleKey_ne
        simp only [servePassphrase, verifyPassphrase, huser]
        exact congrArg (Option.map AuthThrottle.row) hframe
      | verifyPassphrase =>
        obtain rfl := Option.some.inj he
        simp only [servePassphrase, verifyPassphrase, huser]
        exact attempt_record verifyAction _
      | delete => cases he
  | delete authorization supplied =>
    cases e with
    | login => rfl
    | verifyPassphrase => rfl
    | delete => cases he

theorem judgedTries_concat (e : PassphraseEndpoint) (reqs : List PassphraseRequest)
    (req : PassphraseRequest) :
    judgedTries settings platform clientIp t e (reqs ++ [req]) =
      judgedTries settings platform clientIp t e reqs ++
        (if req.endpoint = e then
          (judgedAfter settings platform clientIp t reqs req).map fun ok => ⟨req.now, ok⟩
        else none).toList := by
  rw [judgedTries, Runs.steps_append, List.filterMap_append, ← judgedTries]
  congr 1

/-- **The row of a throttled endpoint is the tally of the passphrases that were checked there.** -/
theorem rowOf_afterRequests {e : PassphraseEndpoint} {action : Text} (he : e.action = some action)
    (ht : rowOf t (throttleKey action clientIp) = none) (reqs : List PassphraseRequest) :
    rowOf (afterRequests settings platform clientIp t reqs) (throttleKey action clientIp) =
      settings.policy.tally (judgedTries settings platform clientIp t e reqs) := by
  induction reqs using List.reverseRecOn with
  | nil => exact ht
  | append_singleton reqs req ih =>
    have hrun : afterRequests settings platform clientIp t (reqs ++ [req]) =
        (servePassphrase settings platform clientIp
          (afterRequests settings platform clientIp t reqs) req).2 := Runs.run_append ..
    rw [hrun, serve_row he, ih, judgedTries_concat, judgedAfter]
    by_cases hreq : req.endpoint = e
    · rw [if_pos hreq, if_pos hreq]
      cases (servePassphrase settings platform clientIp
          (afterRequests settings platform clientIp t reqs) req).1.judged with
      | none =>
        rw [Option.map_none, Option.toList_none, List.append_nil]
      | some ok =>
        rw [Option.map_some, Option.toList_some, Limiter.Policy.tally_concat]
    · rw [if_neg hreq, if_neg hreq, Option.toList_none, List.append_nil]

/-- While the row is locked nothing is checked at the endpoint, and the row stays. -/
theorem serve_locked {e : PassphraseEndpoint} {action : Text} (he : e.action = some action)
    {r : Limiter.Row Time} {u : Time} (hr : rowOf t (throttleKey action clientIp) = some r)
    (hu : r.lockedUntil = some u) {req : PassphraseRequest} (hreq : req.now < u) :
    (req.endpoint = e →
        (servePassphrase settings platform clientIp t req).1.judged = none) ∧
      rowOf (servePassphrase settings platform clientIp t req).2 (throttleKey action clientIp) =
        some r := by
  have hjudged : req.endpoint = e →
      (servePassphrase settings platform clientIp t req).1.judged = none := by
    have hattempt : ∀ ok, (attempt settings action clientIp t ⟨req.now, ok⟩).1.judged = none := by
      intro ok
      have hlocked := (Limiter.step_locked (p := settings.policy) (a := ⟨req.now, ok⟩) hu hreq).1
      rw [(attempt_limiter settings action clientIp t ⟨req.now, ok⟩).1, hr, hlocked]
      rfl
    rintro rfl
    obtain ⟨now, body⟩ := req
    cases body with
    | login passphrase =>
      obtain rfl := Option.some.inj he
      exact hattempt _
    | verifyPassphrase authorization passphrase =>
      obtain rfl := Option.some.inj he
      cases huser : platform.currentUser now authorization with
      | none => simp only [servePassphrase, verifyPassphrase, huser, PassphraseResponse.judged]
      | some hash =>
        simp only [servePassphrase, verifyPassphrase, huser]
        exact hattempt _
    | delete authorization supplied => cases he
  refine ⟨hjudged, ?_⟩
  rw [serve_row he, hr]
  split
  · rfl
  · rename_i ok hok
    split at hok
    · rename_i hendpoint
      rw [hjudged hendpoint] at hok
      cases hok
    · cases hok

theorem afterRequests_locked {e : PassphraseEndpoint} {action : Text}
    (he : e.action = some action) {r : Limiter.Row Time} {u : Time}
    (hr : rowOf t (throttleKey action clientIp) = some r) (hu : r.lockedUntil = some u)
    {reqs : List PassphraseRequest} (hreqs : ∀ req ∈ reqs, req.now < u) :
    rowOf (afterRequests settings platform clientIp t reqs) (throttleKey action clientIp) =
      some r := by
  induction reqs generalizing t with
  | nil => exact hr
  | cons req reqs ih =>
    exact ih (serve_locked he hr hu (hreqs req List.mem_cons_self)).2
      fun req' h => hreqs req' (List.mem_cons_of_mem _ h)

/-- **A throttled endpoint is limited**, when times do not go back. -/
theorem rateLimited_of_action {e : PassphraseEndpoint} {action : Text}
    (he : e.action = some action) (ht : rowOf t (throttleKey action clientIp) = none)
    {reqs : List PassphraseRequest} (hsorted : reqs.Pairwise fun a b => a.now ≤ b.now) :
    RateLimited settings platform clientIp t e reqs := by
  intro before a between b hbeg ha hwrong hcount hb hnow
  have hpart := hsorted.sublist hbeg.sublist
  have hrest := (List.pairwise_cons.1 (List.pairwise_append.1 hpart).2.1).2
  have hbetween : ∀ c ∈ between, c.now < a.now + settings.lock := fun c hc =>
    ((List.pairwise_append.1 hrest).2.2 c hc b List.mem_cons_self).trans_lt hnow
  have hrun : afterRequests settings platform clientIp t (before ++ [a]) =
      (servePassphrase settings platform clientIp
        (afterRequests settings platform clientIp t before) a).2 := Runs.run_append ..
  obtain ⟨r, hr, hlimit⟩ := hcount
  rw [← rowOf_afterRequests he ht] at hr
  -- the wrong passphrase that used up the window set the lock
  have hlock : r.lockedUntil = some (a.now + settings.lock) := by
    have hrow := hr
    rw [hrun, serve_row he, if_pos ha, ← judgedAfter, hwrong] at hrow
    obtain rfl := Option.some.inj hrow
    exact Limiter.lockedUntil_of_limit (p := settings.policy) (a := ⟨a.now, false⟩) hlimit.ge
  have hlater : rowOf (afterRequests settings platform clientIp t (before ++ a :: between))
      (throttleKey action clientIp) = some r := by
    have hsplit : afterRequests settings platform clientIp t (before ++ a :: between) =
        afterRequests settings platform clientIp
          (afterRequests settings platform clientIp t (before ++ [a])) between := by
      rw [List.append_cons]
      exact Runs.run_append ..
    rw [hsplit]
    exact afterRequests_locked he hr hlock hbetween
  exact (serve_locked he hlater hlock hnow).1 hb

/-! ## The deletes -/

/-- The check of a delete's passphrase does not depend on what was sent before. -/
theorem judgedAfter_delete {before : List PassphraseRequest} {req : PassphraseRequest}
    (h : req.endpoint = .delete) :
    judgedAfter settings platform clientIp t before req =
      (deleteTry platform req).map fun a => a.ok := by
  obtain ⟨now, body⟩ := req
  cases body with
  | login passphrase => cases h
  | verifyPassphrase authorization passphrase => cases h
  | delete authorization supplied =>
    simp only [judgedAfter, servePassphrase, deleteConfirm, deleteTry]
    cases platform.currentUser now authorization with
    | none => rfl
    | some hash => cases confirmPassphrase platform supplied <;> rfl

theorem deleteTry_endpoint {req : PassphraseRequest} {a : Limiter.Try Time}
    (h : deleteTry platform req = some a) : req.endpoint = .delete ∧ a.now = req.now := by
  obtain ⟨now, body⟩ := req
  cases body with
  | login passphrase => cases h
  | verifyPassphrase authorization passphrase => cases h
  | delete authorization supplied =>
    obtain ⟨hash, _, hmap⟩ := Option.bind_eq_some_iff.1 h
    obtain ⟨ok, _, rfl⟩ := Option.map_eq_some_iff.1 hmap
    exact ⟨rfl, rfl⟩

theorem judgedTries_delete (reqs : List PassphraseRequest) :
    judgedTries settings platform clientIp t .delete reqs =
      reqs.filterMap (deleteTry platform) := by
  induction reqs using List.reverseRecOn with
  | nil => rfl
  | append_singleton reqs req ih =>
    have htry : (if req.endpoint = .delete then
        (judgedAfter settings platform clientIp t reqs req).map fun ok => ⟨req.now, ok⟩
        else none) = deleteTry platform req := by
      cases hdelete : deleteTry platform req with
      | none =>
        split
        · rename_i hreq
          rw [judgedAfter_delete hreq, hdelete]
          rfl
        · rfl
      | some a =>
        obtain ⟨hreq, hnow⟩ := deleteTry_endpoint hdelete
        rw [if_pos hreq, judgedAfter_delete hreq, hdelete, ← hnow]
        rfl
    rw [judgedTries_concat, ih, List.filterMap_append, htry]
    cases hdelete : deleteTry platform req <;> simp [hdelete]

/-- **Passphrases are limited at every endpoint exactly when the client itself pauses its deletes:
`DELETE /memories/{id}` compares whatever it is sent.** -/
theorem rateLimited_iff (settings : ThrottleSettings) (platform : AuthPlatform Hash)
    (clientIp : Text) (t : ThrottleTable)
    (ht : ∀ e : PassphraseEndpoint, ∀ action ∈ e.action,
      t.find (throttleKey action clientIp) = none)
    (reqs : List PassphraseRequest) (hsorted : reqs.Pairwise fun a b => a.now ≤ b.now) :
    (∀ e, RateLimited settings platform clientIp t e reqs) ↔
      DeletesPause settings platform reqs := by
  constructor
  · intro h before a between b hbeg ha hcount hb
    obtain ⟨hreq, _⟩ := deleteTry_endpoint ha
    obtain ⟨c, hc⟩ := Option.isSome_iff_exists.1 hb
    obtain ⟨hreq', _⟩ := deleteTry_endpoint hc
    by_contra hnow
    rw [← judgedTries_delete] at hcount
    have hnone := h .delete before a between b hbeg hreq
      (by rw [judgedAfter_delete hreq, ha]; rfl) hcount hreq' (not_le.1 hnow)
    rw [judgedAfter_delete hreq', hc] at hnone
    cases hnone
  · intro h e
    have hrow : ∀ {e : PassphraseEndpoint} {action : Text}, e.action = some action →
        rowOf t (throttleKey action clientIp) = none := fun he => by
      rw [rowOf, ht _ _ he, Option.map_none]
    cases e with
    | login => exact rateLimited_of_action (e := .login) rfl (hrow (e := .login) rfl) hsorted
    | verifyPassphrase =>
      exact rateLimited_of_action (e := .verifyPassphrase) rfl
        (hrow (e := .verifyPassphrase) rfl) hsorted
    | delete =>
      intro before a between b hbeg ha hwrong hcount hb hnow
      rw [judgedTries_delete] at hcount
      rw [judgedAfter_delete ha, Option.map_eq_some_iff] at hwrong
      obtain ⟨c, hc, hok⟩ := hwrong
      obtain ⟨_, hcnow⟩ := deleteTry_endpoint hc
      obtain rfl : c = ⟨a.now, false⟩ := by rw [← hok, ← hcnow]
      rw [judgedAfter_delete hb, Option.map_eq_none_iff]
      by_contra hsome
      have hpause := h before a between b hbeg hc hcount (Option.isSome_iff_ne_none.2 hsome)
      exact absurd hnow (not_lt.2 hpause)

/-- One user, whose passphrase is its own hash and whose token is `t`. -/
def plainAuth : AuthPlatform Text where
  owner := some "right".toList
  currentUser _ authorization :=
    if authorization = some "Bearer t".toList then some "right".toList else none
  verifyPassphrase passphrase hash := passphrase = hash

/-- Delete number `n`, one a second, with a wrong passphrase. -/
def guess (n : Nat) : PassphraseRequest :=
  ⟨seconds n, .delete (some "Bearer t".toList) (some "wrong".toList)⟩

/-- With the default settings a sixth wrong passphrase is compared within six seconds. -/
theorem rateLimited_not_delete :
    ¬∀ e, RateLimited ⟨5, 900, 900⟩ plainAuth "192.0.2.1".toList Table.empty e
      ((List.range 6).map guess) := by
  intro h
  have hsixth := h .delete [guess 0, guess 1, guess 2, guess 3] (guess 4) [] (guess 5)
    (by decide) rfl (by decide +kernel) ⟨⟨5, 0, some 904000000⟩, by decide +kernel, rfl⟩ rfl
    (by decide)
  exact absurd hsixth (by decide +kernel)

/-- A client that deletes once a quarter of an hour. -/
theorem rateLimited_slow :
    (∀ e, RateLimited ⟨1, 900, 900⟩ plainAuth "192.0.2.1".toList Table.empty e
      [guess 0, guess 900]) ↔
      DeletesPause ⟨1, 900, 900⟩ plainAuth [guess 0, guess 900] :=
  rateLimited_iff _ _ _ _ (fun _ _ _ => rfl) _ (by decide)

end MeJournal
